import Pseudonym.Proofs.Reading

namespace Pseudonym

open Text Traversal

variable {σ : Type}

theorem Node.writtenAs_eq (source : Bytes) (m : Node) (name : Option String) :
    m.writtenAs source name =
      (name.map fun name => encode (m.sigil ++ name)).getD
        (slice source m.span.start m.span.stop) := by
  cases name <;> rfl

namespace Registry

/-- Names with the names that are drawn for them in turn. -/
def drawn (g : Nat → String) (names : List String) : Registry :=
  ⟨names.mapIdx fun i name => (name, g i)⟩

theorem find?_drawn (g : Nat → String) (names : List String) {name : String} (h : name ∈ names) :
    (drawn g names).find? name = some (g (names.idxOf name)) := by
  rw [find?, drawn]
  induction names generalizing g with
  | nil => cases h
  | cons first names ih =>
      rw [List.mapIdx_cons, List.lookup_cons, List.idxOf_cons]
      by_cases hfirst : name = first
      · subst hfirst
        simp
      · have hmem : name ∈ names := (List.mem_cons.mp h).resolve_left hfirst
        have hbeq : (first == name) = false := beq_false_of_ne (Ne.symm hfirst)
        rw [beq_false_of_ne hfirst, hbeq]
        exact ih (fun i => g (i + 1)) hmem

theorem forall_mem_drawn {P : String → Prop} {g : Nat → String} (names : List String)
    (h : ∀ i < names.length, P (g i)) : ∀ p ∈ (drawn g names).pairs, P p.2 := by
  intro p hp
  obtain ⟨i, hi, rfl⟩ := List.mem_mapIdx.mp hp
  exact h i hi

end Registry

namespace Redactor

section

variable (r : Redactor σ) {parser : Parser} {request : Request} {state : σ} {text : String}
  {profile : Profile} (htext : Registry.usable? request.text = some text)
  (hprofile : (r.resolver.resolve request.hint).1 = .ok profile)

include htext hprofile

theorem redact_eq_redactText :
    (r.redact parser request state).result =
        (r.redactText parser profile request.includeMapping text state).result ∧
      (r.redact parser request state).state =
        (r.redactText parser profile request.includeMapping text state).state := by
  rcases hresolver : r.resolver.resolve request.hint with ⟨result, log⟩
  obtain rfl : result = .ok profile := by rw [← hprofile, hresolver]
  rw [redact, htext, hresolver]
  exact ⟨rfl, rfl⟩

theorem redact_state :
    (r.redact parser request state).state =
      (rename r.supply parser profile text state).state := by
  rw [(r.redact_eq_redactText htext hprofile).2, redactText]
  split <;> rfl

/-- What a request comes to if its text is renamed. -/
theorem redact_of_rename {done : Renamed}
    (hdone : (rename r.supply parser profile text state).result = .ok done) :
    (r.redact parser request state).result = .ok
      { code := done.code
        profile := profile.name
        replaced := done.replaced
        mapping := if request.includeMapping.getD r.includeMapping then
          some done.registry.pairs else none } := by
  rw [(r.redact_eq_redactText htext hprofile).1, redactText]
  simp only [hdone]

theorem redact_of_rename_error {e : Error}
    (he : (rename r.supply parser profile text state).result = .error e) :
    (r.redact parser request state).result = .error (.request .failed) := by
  rw [(r.redact_eq_redactText htext hprofile).1, redactText]
  simp only [he]

end

theorem redact_of_resolve_error (r : Redactor σ) (parser : Parser) {request : Request} (state : σ)
    {text : String} {e : Error} (htext : Registry.usable? request.text = some text)
    (he : (r.resolver.resolve request.hint).1 = .error e) :
    (r.redact parser request state).result = .error e ∧
      (r.redact parser request state).state = state := by
  rcases hresolver : r.resolver.resolve request.hint with ⟨result, log⟩
  obtain rfl : result = .error e := by rw [← he, hresolver]
  rw [redact, htext, hresolver]
  exact ⟨rfl, rfl⟩

end Redactor

theorem Supply.after_numbered (state n : Nat) : Supply.numbered.after state n = state + n := by
  induction n generalizing state with
  | zero => rfl
  | succ n ih =>
      rw [after, ih]
      exact Nat.add_right_comm state 1 n

theorem Supply.draw_numbered (state i : Nat) :
    (numbered.draw (numbered.after state i)).1 = .ok ("sub_" ++ toString (state + i + 1)) := by
  rw [after_numbered]
  rfl

theorem Supply.numbered_injective (state : Nat) :
    Function.Injective fun i : Nat => "sub_" ++ toString (state + i + 1) := by
  intro i j hij
  have hdigits : Nat.toDigits 10 (state + i + 1) = Nat.toDigits 10 (state + j + 1) := by
    have hlists := congrArg String.toList hij
    simpa [Nat.toString_eq_ofList_toDigits] using hlists
  have hvalue := congrArg (fun digits => Nat.ofDigitChars 10 digits 0) hdigits
  simpa using hvalue

namespace Reading

variable {parser : Parser} {profile : Profile} (x : Reading parser profile)

/-- The names, each where it comes first. -/
def distinct : List String := x.names.eraseDups

theorem nodup_distinct : x.distinct.Nodup := nodup_eraseDups x.names

theorem resolve_eq_drawn_of_lt (supply : Supply σ) (state : σ) (g : Nat → String)
    (hg : ∀ i < x.distinct.length, (supply.draw (supply.after state i)).1 = .ok (g i)) :
    x.resolve supply state =
      (none, .drawn g x.distinct, supply.after state x.distinct.length) := by
  have hfresh : Registry.fresh {} x.names = x.distinct := Registry.fresh_empty x.names
  rw [← hfresh] at hg
  rw [resolve, Registry.substituteAll_eq supply {} state g x.names hg, hfresh]
  rfl

theorem exists_find?_drawn (g : Nat → String) :
    ∀ name ∈ x.names, ∃ s, (Registry.drawn g x.distinct).find? name = some s :=
  fun _ hname => ⟨_, Registry.find?_drawn g x.distinct (List.mem_eraseDups.mpr hname)⟩

theorem writable_drawn_iff {writable : String → Bool} {g : Nat → String} :
    x.Writable writable (.drawn g x.distinct) ↔
      ∀ i < x.distinct.length, g i = "" ∨ writable (g i) = true := by
  constructor
  · intro h i hi
    have hmem : x.distinct[i] ∈ x.distinct := List.getElem_mem hi
    have hfind := Registry.find?_drawn g x.distinct hmem
    rw [x.nodup_distinct.idxOf_getElem i hi] at hfind
    exact h _ (List.mem_eraseDups.mp hmem) _ hfind
  · intro h name hname s hs
    have hmem : name ∈ x.distinct := List.mem_eraseDups.mpr hname
    rw [Registry.find?_drawn g x.distinct hmem] at hs
    rw [← Option.some.inj hs]
    exact h _ (List.idxOf_lt_length_iff.mpr hmem)

theorem rename_state_drawn (supply : Supply σ) (state : σ) (g : Nat → String)
    (hg : ∀ i < x.distinct.length, (supply.draw (supply.after state i)).1 = .ok (g i)) :
    (Redactor.rename supply parser profile x.text state).state =
      supply.after state x.distinct.length := by
  rw [rename_state, x.resolve_eq_drawn_of_lt supply state g hg]

/-- Where the leaves lie between characters a text is renamed with the names that are drawn, if these
can be written. -/
theorem rename_eq_drawn (hbound : OnBoundaries x.text x.spans) (supply : Supply σ) (state : σ)
    (g : Nat → String)
    (hg : ∀ i < x.distinct.length, (supply.draw (supply.after state i)).1 = .ok (g i))
    (hw : ∀ i < x.distinct.length, g i = "" ∨ supply.writable (g i) = true) :
    ∃ code, (Redactor.rename supply parser profile x.text state).result =
      .ok ⟨code, x.names.length, .drawn g x.distinct⟩ := by
  obtain ⟨code, hcode⟩ := x.exists_print_renamed (x.exists_find?_drawn g)
    (x.writable_drawn_iff.mpr hw) hbound
  refine ⟨code, ?_⟩
  rw [rename_result, x.resolve_eq_drawn_of_lt supply state g hg]
  simp only [hcode]
  rfl

/-- A name that cannot be written spoils the text that it was drawn for. -/
theorem rename_eq_error (supply : Supply σ) (state : σ) (g : Nat → String)
    (hg : ∀ i < x.distinct.length, (supply.draw (supply.after state i)).1 = .ok (g i))
    (hw : ∃ i < x.distinct.length, g i ≠ "" ∧ supply.writable (g i) = false) :
    ∃ e, (Redactor.rename supply parser profile x.text state).result = .error e := by
  have hnot : ¬ x.Writable supply.writable (.drawn g x.distinct) := by
    rw [writable_drawn_iff]
    obtain ⟨i, hi, hne, hfalse⟩ := hw
    intro h
    rcases h i hi with hempty | htrue
    · exact hne hempty
    · cases hfalse.symm.trans htrue
  obtain ⟨e, he⟩ := x.print_renamed_of_not_writable (x.exists_find?_drawn g) hnot
  refine ⟨e, ?_⟩
  rw [rename_result, x.resolve_eq_drawn_of_lt supply state g hg]
  simp only [he]
  rfl

def numberedRedactor : Redactor Nat where
  supply := .numbered
  resolver := ⟨[("module", { name := "module" })], "module", .reject, { name := "module" }, rfl⟩
  includeMapping := false

end Reading

end Pseudonym
