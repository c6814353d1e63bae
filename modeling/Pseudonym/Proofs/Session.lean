import Mathlib.Data.List.Nodup
import Pseudonym.Proofs.Requests

namespace Pseudonym

open Text Traversal

variable {σ : Type}

theorem Supply.after_add (supply : Supply σ) (state : σ) (m n : Nat) :
    supply.after state (m + n) = supply.after (supply.after state m) n := by
  induction m generalizing state with
  | zero =>
      rw [Nat.zero_add]
      rfl
  | succ m ih =>
      rw [Nat.add_right_comm]
      exact ih (supply.draw state).2

def Tree.distinctNames (t : Tree) : List String := t.root.usedNames.eraseDups

namespace Resolver

/-- The tree that a request is about, if it gets so far. -/
def read? (r : Resolver) (parser : Parser) (request : Request) : Option Tree :=
  match Registry.usable? request.text, (r.resolve request.hint).1 with
  | some text, .ok profile => (parser.tree profile text).toOption
  | _, _ => none

def namesOf (r : Resolver) (parser : Parser) (request : Request) : List String :=
  ((r.read? parser request).map Tree.distinctNames).getD []

def drawn (r : Resolver) (parser : Parser) : List Request → Nat
  | [] => 0
  | request :: rest => (r.namesOf parser request).length + r.drawn parser rest

/-- The leaves of the text lie between its characters, one after another. -/
def WellPlaced (r : Resolver) (parser : Parser) (request : Request) : Prop :=
  ∀ text profile root, request.text = .text text → (r.resolve request.hint).1 = .ok profile →
    parser profile text = .ok root →
      Span.InOrder (encode text).length (root.leaves.map ParseNode.span) ∧
        OnBoundaries text (root.leaves.map ParseNode.span)

variable {r : Resolver} {parser : Parser} {request : Request}

theorem read?_eq {text : String} {profile : Profile} (htext : request.text = .text text)
    (hne : text ≠ "") (hprofile : (r.resolve request.hint).1 = .ok profile) :
    r.read? parser request = (parser.tree profile text).toOption := by
  rw [read?, Registry.usable?_eq_some_iff.mpr ⟨htext, hne⟩, hprofile]

theorem read?_of_not_hasText (h : ¬ request.HasText) : r.read? parser request = none := by
  rw [Request.hasText_iff, not_exists] at h
  rw [read?, Option.eq_none_iff_forall_ne_some.mpr h]

theorem read?_of_not_ok (h : request.hint.display = none ∨ r.Unknown request.hint) :
    r.read? parser request = none := by
  have herror : ∃ e, (r.resolve request.hint).1 = .error e := by
    rcases r.resolve_cases request.hint with ⟨-, he⟩ | ⟨-, -, _, he⟩ | ⟨hsome, hknown, -⟩
    · exact ⟨_, he⟩
    · exact ⟨_, he⟩
    · exact absurd h (not_or.mpr ⟨hsome, hknown⟩)
  obtain ⟨e, he⟩ := herror
  rw [read?, he]
  cases Registry.usable? request.text <;> rfl

theorem namesOf_of_none (h : r.read? parser request = none) : r.namesOf parser request = [] := by
  rw [namesOf, h]
  rfl

end Resolver

theorem Reading.distinctNames_eq {parser : Parser} {profile : Profile} (x : Reading parser profile) :
    (Tree.mk x.node x.source).distinctNames = x.distinct := by
  rw [Tree.distinctNames, x.usedNames_eq, distinct]

namespace Redactor

/-- What a request does to the supply: nothing if its text is not read, and else it draws one name for
each of its own. The answer is drawn from `start` on as `g` tells. It is missing if the text is not read
or a name that is drawn cannot be written. -/
structure Serves (r : Redactor σ) (parser : Parser) (g : Nat → String) (start : σ)
    (request : Request) : Prop where
  done_iff : (∃ done, (r.redact parser request start).result = .ok done) ↔
    (∃ tree, r.resolver.read? parser request = some tree) ∧
      ∀ i < (r.resolver.namesOf parser request).length, g i = "" ∨ r.supply.writable (g i) = true
  unchanged : r.resolver.read? parser request = none → (r.redact parser request start).state = start
  advanced : ∀ tree, r.resolver.read? parser request = some tree →
    (r.redact parser request start).state =
      r.supply.after start (r.resolver.namesOf parser request).length
  mapping_eq : ∀ done, (r.redact parser request start).result = .ok done →
    done.mapping = if request.includeMapping.getD r.includeMapping then
      some ((r.resolver.namesOf parser request).mapIdx fun i name => (name, g i)) else none

variable {r : Redactor σ} {parser : Parser} {request : Request}

theorem serves_of_error {g : Nat → String} {start : σ} {e : Error}
    (hread : r.resolver.read? parser request = none)
    (hresult : (r.redact parser request start).result = .error e)
    (hstate : (r.redact parser request start).state = start) :
    r.Serves parser g start request := by
  constructor
  · simp [hread, hresult]
  · exact fun _ => hstate
  · intro tree htree
    cases hread.symm.trans htree
  · intro done hdone
    cases hresult.symm.trans hdone

theorem serves_of_reading {profile : Profile} (x : Reading parser profile)
    (hbound : OnBoundaries x.text x.spans) (htext : Registry.usable? request.text = some x.text)
    (hprofile : (r.resolver.resolve request.hint).1 = .ok profile)
    (hread : r.resolver.read? parser request = some ⟨x.node, x.source⟩) {start : σ} {g : Nat → String}
    (hg : ∀ i, (r.supply.draw (r.supply.after start i)).1 = .ok (g i)) :
    r.Serves parser g start request := by
  have hnames : r.resolver.namesOf parser request = x.distinct := by
    rw [Resolver.namesOf, hread, ← x.distinctNames_eq]
    rfl
  have hstate : (r.redact parser request start).state =
      r.supply.after start x.distinct.length := by
    rw [r.redact_state htext hprofile, x.rename_state_drawn r.supply start g fun i _ => hg i]
  by_cases hw : ∀ i < x.distinct.length, g i = "" ∨ r.supply.writable (g i) = true
  · obtain ⟨code, hcode⟩ := x.rename_eq_drawn hbound r.supply start g (fun i _ => hg i) hw
    have hresult := r.redact_of_rename htext hprofile hcode
    refine ⟨?_, fun hnone => ?_, fun tree _ => by rw [hstate, hnames], fun done hdone => ?_⟩
    · rw [hnames, hread]
      exact ⟨fun _ => ⟨⟨_, rfl⟩, hw⟩, fun _ => ⟨_, hresult⟩⟩
    · cases hread.symm.trans hnone
    · obtain rfl := Except.ok.inj (hresult.symm.trans hdone)
      rw [hnames]
      rfl
  · simp only [not_forall, not_or, Bool.not_eq_true] at hw
    obtain ⟨i, hi, hne, hfalse⟩ := hw
    obtain ⟨e, he⟩ := x.rename_eq_error r.supply start g (fun i _ => hg i) ⟨i, hi, hne, hfalse⟩
    have hresult := r.redact_of_rename_error htext hprofile he
    refine ⟨?_, fun hnone => ?_, fun tree _ => by rw [hstate, hnames], fun done hdone => ?_⟩
    · rw [hnames, hresult]
      refine ⟨nofun, fun h => ?_⟩
      rcases h.2 i hi with hempty | htrue
      · exact absurd hempty hne
      · cases hfalse.symm.trans htrue
    · cases hread.symm.trans hnone
    · cases hresult.symm.trans hdone

theorem redact_serves (hplaced : r.resolver.WellPlaced parser request) {start : σ} {g : Nat → String}
    (hg : ∀ i, (r.supply.draw (r.supply.after start i)).1 = .ok (g i)) :
    r.Serves parser g start request := by
  rcases r.redact_cases parser request start with
    ⟨hno, hresult, hstate⟩ | ⟨-, hnone, hresult, hstate⟩ | ⟨-, -, hunknown, ⟨_, hresult⟩, hstate⟩ |
      ⟨text, profile, htext, hne, -, -, hprofile, hstate, hend⟩
  · exact serves_of_error (Resolver.read?_of_not_hasText hno) hresult hstate
  · exact serves_of_error (Resolver.read?_of_not_ok (.inl hnone)) hresult hstate
  · exact serves_of_error (Resolver.read?_of_not_ok (.inr hunknown)) hresult hstate
  · have hread : r.resolver.read? parser request = (parser.tree profile text).toOption :=
      Resolver.read?_eq htext hne hprofile
    cases htree : parser.tree profile text with
    | error e =>
        rw [htree] at hread
        rw [rename, htree] at hstate hend
        -- Nothing is drawn before the tree is there.
        rcases hend with ⟨_, -, hresult⟩ | ⟨_, hdone, -⟩
        · exact serves_of_error hread hresult hstate
        · cases hdone
    | ok tree =>
        obtain ⟨root, node, hroot, hnode, rfl⟩ := Parser.tree_eq_ok_iff.mp htree
        obtain ⟨horder, hbound⟩ := hplaced text profile root htext hprofile hroot
        let x : Reading parser profile := ⟨text, root, node, hroot, hnode, horder⟩
        rw [htree] at hread
        exact serves_of_reading x hbound (Registry.usable?_eq_some_iff.mpr ⟨htext, hne⟩) hprofile
          hread hg

theorem Serves.state_eq {g : Nat → String} {start : σ} (h : r.Serves parser g start request) :
    (r.redact parser request start).state =
      r.supply.after start (r.resolver.namesOf parser request).length := by
  cases hread : r.resolver.read? parser request with
  | some tree => exact h.advanced tree hread
  | none =>
      rw [h.unchanged hread, Resolver.namesOf_of_none hread]
      rfl

theorem draws_after {supply : Supply σ} {state : σ} {g : Nat → String}
    (hg : ∀ i, (supply.draw (supply.after state i)).1 = .ok (g i)) (n i : Nat) :
    (supply.draw (supply.after (supply.after state n) i)).1 = .ok (g (n + i)) := by
  rw [← supply.after_add]
  exact hg (n + i)

/-- Each request is answered by itself, from where the names of the earlier ones end. -/
theorem session_serves {requests : List Request}
    (hplaced : ∀ q ∈ requests, r.resolver.WellPlaced parser q) {state : σ} {g : Nat → String}
    (hg : ∀ i, (r.supply.draw (r.supply.after state i)).1 = .ok (g i)) (before : List Request)
    (request : Request) (behind : List Request) (hsplit : requests = before ++ request :: behind) :
    (r.session parser requests state)[before.length]? = some (r.redact parser request
        (r.supply.after state (r.resolver.drawn parser before))) ∧
      r.Serves parser (fun i => g (r.resolver.drawn parser before + i))
        (r.supply.after state (r.resolver.drawn parser before)) request := by
  subst hsplit
  -- The supply of a later request is the supply of an earlier one, moved on: the draws are
  -- generalised along with the state.
  refine ⟨?_, redact_serves (hplaced request (by simp)) (draws_after hg _)⟩
  induction before generalizing state g with
  | nil => rfl
  | cons first before ih =>
      obtain ⟨hfirst, hrest⟩ := List.forall_mem_cons.mp hplaced
      have hstate := (redact_serves hfirst hg).state_eq
      have h := ih (draws_after hg (r.resolver.namesOf parser first).length) hrest
      rw [← r.supply.after_add, ← hstate] at h
      exact h

end Redactor

def Reply.substitutes (reply : Reply σ Redaction) : List String :=
  match reply.result with
  | .ok done => (done.mapping.getD []).map (·.2)
  | .error _ => []

theorem map_snd_mapIdx (g : Nat → String) (names : List String) :
    (names.mapIdx fun i name => (name, g i)).map (·.2) = (List.range names.length).map g := by
  apply List.ext_getElem
  · simp
  · simp

namespace Redactor

variable {r : Redactor σ} {parser : Parser}

theorem Serves.substitutes_sublist {request : Request} {g : Nat → String} {start : σ}
    (h : r.Serves parser g start request) :
    (r.redact parser request start).substitutes.Sublist
      ((List.range (r.resolver.namesOf parser request).length).map g) := by
  rw [Reply.substitutes]
  cases hresult : (r.redact parser request start).result with
  | error e => exact List.nil_sublist _
  | ok done =>
      simp only [h.mapping_eq done hresult]
      split
      · rw [Option.getD_some, map_snd_mapIdx]
      · exact List.nil_sublist _

theorem session_substitutes_sublist {requests : List Request}
    (hplaced : ∀ q ∈ requests, r.resolver.WellPlaced parser q) {state : σ} {g : Nat → String}
    (hg : ∀ i, (r.supply.draw (r.supply.after state i)).1 = .ok (g i)) :
    ((r.session parser requests state).flatMap Reply.substitutes).Sublist
      ((List.range (r.resolver.drawn parser requests)).map g) := by
  induction requests generalizing state g with
  | nil => exact List.nil_sublist _
  | cons first rest ih =>
      obtain ⟨hfirst, hrest⟩ := List.forall_mem_cons.mp hplaced
      have hserves := redact_serves hfirst hg
      have hlater := ih hrest (draws_after hg (r.resolver.namesOf parser first).length)
      rw [← hserves.state_eq] at hlater
      rw [session, List.flatMap_cons, Resolver.drawn, List.range_add, List.map_append, List.map_map]
      exact hserves.substitutes_sublist.append hlater

def numbered (r : Redactor σ) : Redactor Nat := ⟨.numbered, r.resolver, r.includeMapping⟩

/-- Requests share the supply and nothing else. A numbered supply gives the names of a text the
numbers that follow those of all earlier texts, so no number is told for two names. -/
theorem session_shares_supply (r : Redactor σ) (parser : Parser) (requests : List Request)
    (hplaced : ∀ q ∈ requests, r.resolver.WellPlaced parser q) :
    (∀ (state : σ) (g : Nat → String),
      (∀ i, (r.supply.draw (r.supply.after state i)).1 = .ok (g i)) →
      ∀ before request behind, requests = before ++ request :: behind →
        (r.session parser requests state)[before.length]? = some (r.redact parser request
            (r.supply.after state (r.resolver.drawn parser before))) ∧
          r.Serves parser (fun i => g (r.resolver.drawn parser before + i))
            (r.supply.after state (r.resolver.drawn parser before)) request) ∧
    (∀ before request behind, requests = before ++ request :: behind →
      (r.numbered.session parser requests 0)[before.length]? = some (r.numbered.redact parser request
          (r.resolver.drawn parser before)) ∧
        r.numbered.Serves parser
          (fun i => "sub_" ++ toString (r.resolver.drawn parser before + i + 1))
          (r.resolver.drawn parser before) request) ∧
    ((r.numbered.session parser requests 0).flatMap Reply.substitutes).Nodup := by
  have hdraws : ∀ i, (r.numbered.supply.draw (r.numbered.supply.after 0 i)).1 =
      .ok ("sub_" ++ toString (i + 1)) := by
    intro i
    have h := Supply.draw_numbered 0 i
    rw [Nat.zero_add] at h
    exact h
  have hinj := Supply.numbered_injective 0
  simp only [Nat.zero_add] at hinj
  refine ⟨fun state g hg => session_serves hplaced hg, ?_, ?_⟩
  · intro before request behind hsplit
    have h := session_serves (r := r.numbered) hplaced hdraws before request behind hsplit
    rw [show r.numbered.supply.after 0 (r.numbered.resolver.drawn parser before) =
      r.resolver.drawn parser before from (Supply.after_numbered 0 _).trans (Nat.zero_add _)] at h
    exact h
  · exact (session_substitutes_sublist (r := r.numbered) hplaced hdraws).nodup
      (List.nodup_range.map hinj)

def fewTexts : Parser := fun _ text =>
  if text = "a=b.#a" then .ok (Reading.assignment 1 1)
  else if text = "é=sub_1.#é" then .ok (Reading.assignment 2 5)
  else .error ⟨.unreadable, none, none⟩

def mixedRequests : List Request :=
  [⟨.text "a=b.#a", .null, some true⟩, ⟨.text "", .null, some true⟩,
    ⟨.text "a", .text "cobol", some true⟩, ⟨.text "(", .null, some true⟩]

def lastRequest : Request := ⟨.text "é=sub_1.#é", .text " Module ", some true⟩

/-- The last request comes after a success and three failures of different kinds. -/
theorem session_mixed :
    (Reading.numberedRedactor.session fewTexts (mixedRequests ++ [lastRequest]) 0)[4]? =
        some (Reading.numberedRedactor.redact fewTexts lastRequest 2) ∧
      ∃ done, (Reading.numberedRedactor.redact fewTexts lastRequest 2).result = .ok done ∧
        done.mapping = some [("é", "sub_3"), ("sub_1", "sub_4")] := by
  have hplaced : ∀ q ∈ mixedRequests ++ [lastRequest],
      Reading.numberedRedactor.resolver.WellPlaced fewTexts q := by
    intro q _ text profile root _ _ hroot
    rw [fewTexts] at hroot
    split at hroot
    · subst text
      obtain rfl := Except.ok.inj hroot
      exact ⟨Reading.short.inOrder, by decide⟩
    · split at hroot
      · subst text
        obtain rfl := Except.ok.inj hroot
        exact ⟨Reading.long.inOrder, by decide⟩
      · cases hroot
  have hshort : fewTexts.tree { name := "module" } "a=b.#a" =
      .ok ⟨Reading.short.node, Reading.short.source⟩ :=
    Parser.tree_eq_ok_iff.mpr ⟨_, _, rfl, Reading.short.converted, rfl⟩
  have hlong : fewTexts.tree { name := "module" } "é=sub_1.#é" =
      .ok ⟨Reading.long.node, Reading.long.source⟩ :=
    Parser.tree_eq_ok_iff.mpr ⟨_, _, rfl, Reading.long.converted, rfl⟩
  have hdrawn : Reading.numberedRedactor.resolver.drawn fewTexts mixedRequests = 2 := by
    have hfirst : Reading.numberedRedactor.resolver.read? fewTexts
        ⟨.text "a=b.#a", .null, some true⟩ = some ⟨Reading.short.node, Reading.short.source⟩ :=
      (Resolver.read?_eq rfl (by decide) rfl).trans (congrArg Except.toOption hshort)
    rw [mixedRequests, Resolver.drawn, Resolver.namesOf, hfirst]
    rfl
  have hread : Reading.numberedRedactor.resolver.read? fewTexts lastRequest =
      some ⟨Reading.long.node, Reading.long.source⟩ :=
    (Resolver.read?_eq rfl (by decide) rfl).trans (congrArg Except.toOption hlong)
  obtain ⟨hreply, hserves⟩ := (session_shares_supply Reading.numberedRedactor fewTexts _ hplaced).2.1
    mixedRequests lastRequest [] rfl
  rw [hdrawn] at hreply hserves
  obtain ⟨done, hdone⟩ := hserves.done_iff.mpr ⟨⟨_, hread⟩, fun _ _ => .inr rfl⟩
  refine ⟨hreply, done, hdone, ?_⟩
  rw [hserves.mapping_eq done hdone, Resolver.namesOf]
  exact congrArg (fun tree : Option Tree => some
    (((tree.map Tree.distinctNames).getD []).mapIdx fun i name =>
      (name, "sub_" ++ toString (2 + i + 1)))) hread

end Redactor

end Pseudonym
