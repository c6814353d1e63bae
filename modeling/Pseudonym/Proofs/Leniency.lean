import Pseudonym.Proofs.Requests
import Pseudonym.Proofs.Tree.Rules

namespace Pseudonym

open Text (Bytes encode)
open Traversal

variable {σ : Type} {source : Bytes} {p q : Profile}

/-- The rules that ask for the profile. -/
structure Profile.Admits (source : Bytes) (p : Profile) (n : ParseNode) : Prop where
  tags : p.tags = true ∨ Rules.isTagType n.type = false
  place : p.sourceType = .module ∨ n.type ∉ Rules.moduleOnlyTypes
  strict : p.sourceType = .module → Rules.checkStrict source n = .ok ()

/-- The rules that are the same for all profiles. -/
structure Rules.Sound (source : Bytes) (c : Rules.Context) (n : ParseNode) : Prop where
  type_ne : n.type ≠ "ERROR"
  present : n.isMissing = false
  jump : checkJump c n = .ok ()
  declarations : n.type ∈ blockTypes → checkDeclarations source n = .ok ()

theorem Rules.checkNode_eq_ok_iff_sound {c : Context} {n : ParseNode} :
    checkNode source p c n = .ok () ↔ Sound source c n ∧ p.Admits source n := by
  rw [checkNode_eq_ok_iff]
  constructor
  · rintro ⟨htype, hpresent, htags, hplace, hstrict, hjump, hdeclarations⟩
    exact ⟨⟨htype, hpresent, hjump, hdeclarations⟩, ⟨htags, hplace, hstrict⟩⟩
  · rintro ⟨⟨htype, hpresent, hjump, hdeclarations⟩, ⟨htags, hplace, hstrict⟩⟩
    exact ⟨htype, hpresent, htags, hplace, hstrict, hjump, hdeclarations⟩

namespace Convert

theorem Task.shell_eq_ok_iff_admits {t : Task} {s : Shell}
    (h : p.Admits source t.node → q.Admits source t.node) :
    t.shell source p = .ok s ↔ p.Admits source t.node ∧ t.shell source q = .ok s := by
  simp only [Task.shell, map_eq_ok_iff, visit_eq_ok_iff, Rules.checkNode_eq_ok_iff_sound]
  constructor
  · rintro ⟨m, ⟨⟨hsound, hp⟩, hmake⟩, hs⟩
    exact ⟨hp, m, ⟨⟨hsound, h hp⟩, hmake⟩, hs⟩
  · rintro ⟨hp, m, ⟨⟨hsound, -⟩, hmake⟩, hs⟩
    exact ⟨m, ⟨⟨hsound, hp⟩, hmake⟩, hs⟩

theorem mapM_shell_eq_ok_iff_admits {tasks : List Task} {ss : List Shell}
    (h : ∀ t ∈ tasks, p.Admits source t.node → q.Admits source t.node) :
    tasks.mapM (Task.shell source p) = .ok ss ↔
      (∀ t ∈ tasks, p.Admits source t.node) ∧ tasks.mapM (Task.shell source q) = .ok ss := by
  simp only [mapM_eq_ok_iff]
  rw [← List.forall₂_and_left]
  -- What is known of the tasks goes into the relation.
  constructor
  · intro hp
    have hboth := (List.forall₂_and_left _ _).mpr ⟨h, hp⟩
    exact hboth.imp fun t s ⟨ht, hs⟩ => (Task.shell_eq_ok_iff_admits ht).mp hs
  · intro hq
    have hboth := (List.forall₂_and_left _ _).mpr ⟨h, hq⟩
    exact hboth.imp fun t s ⟨ht, hs⟩ => (Task.shell_eq_ok_iff_admits ht).mpr hs

/-- The narrower of two profiles takes the trees that the wider takes and that it admits throughout,
and it makes the same of them. -/
theorem convert_eq_ok_iff_admits {root : ParseNode} {node : Node}
    (h : ∀ n ∈ root.preorder, p.Admits source n → q.Admits source n) :
    convert source p root = .ok node ↔
      (∀ n ∈ root.preorder, p.Admits source n) ∧ convert source q root = .ok node := by
  have hnodes : root.preorder = (Task.root root).all.map Task.node :=
    (Task.map_node_all (Task.root root)).symm
  simp only [hnodes, List.forall_mem_map] at h ⊢
  rw [convert_eq_ok_iff_shells, convert_eq_ok_iff_shells, mapM_shell_eq_ok_iff_admits h]

end Convert

namespace Profile

/-- A profile is widened by tags, and by giving up module source where nothing needs it. -/
inductive Widens (root : ParseNode) (p : Profile) : Profile → Prop
  | tags (name : String) : Widens root p { p with name, tags := true }
  | script (name : String) (h : ∀ n ∈ root.preorder, n.type ∉ Rules.moduleOnlyTypes) :
      Widens root p { p with name, sourceType := .script }

variable {root : ParseNode}

theorem Widens.admits (h : Widens root p q) {n : ParseNode} (hn : n ∈ root.preorder)
    (hp : p.Admits source n) : q.Admits source n := by
  cases h with
  | tags name => exact ⟨.inl rfl, hp.place, hp.strict⟩
  | script name hplain => exact ⟨hp.tags, .inr (hplain n hn), nofun⟩

/-- A text without types is read by one grammar, with tags and without. -/
theorem Widens.grammarName_eq (h : Widens root p q) (htypes : p.types = false ∨ q.tags = p.tags) :
    q.grammarName = p.grammarName := by
  have hsame : q.types = p.types := by cases h <;> rfl
  rcases htypes with hplain | htags
  · simp [grammarName, hsame, hplain]
  · simp [grammarName, hsame, htags]

end Profile

theorem Parser.tree_eq_ok_iff_admits {parser : Parser} {text : String} {root : ParseNode}
    (hp : parser p text = .ok root) (hq : parser q text = .ok root)
    (h : ∀ n ∈ root.preorder, p.Admits (encode text) n → q.Admits (encode text) n) (tree : Tree) :
    parser.tree p text = .ok tree ↔
      (∀ n ∈ root.preorder, p.Admits (encode text) n) ∧ parser.tree q text = .ok tree := by
  simp only [Parser.tree_eq_ok_iff]
  constructor
  · rintro ⟨root', node, hroot, hnode, rfl⟩
    obtain rfl : root = root' := Except.ok.inj (hp.symm.trans hroot)
    obtain ⟨hadmits, hnode⟩ := (Convert.convert_eq_ok_iff_admits h).mp hnode
    exact ⟨hadmits, root, node, hq, hnode, rfl⟩
  · rintro ⟨hadmits, root', node, hroot, hnode, rfl⟩
    obtain rfl : root = root' := Except.ok.inj (hq.symm.trans hroot)
    exact ⟨root, node, hp, (Convert.convert_eq_ok_iff_admits h).mpr ⟨hadmits, hnode⟩, rfl⟩

namespace Redactor

theorem rename_congr {parser : Parser} {text : String}
    (htree : parser.tree p text = parser.tree q text) (supply : Supply σ) (state : σ) :
    (rename supply parser p text state).result = (rename supply parser q text state).result ∧
      (rename supply parser p text state).state = (rename supply parser q text state).state := by
  rw [rename, rename, htree]
  cases parser.tree q text <;> exact ⟨rfl, rfl⟩

/-- The profile of a request matters for its tree, and for the name that is told. -/
theorem redact_congr (r : Redactor σ) {parser : Parser} {a b : Request} {text : String}
    (ha : a.text = .text text) (hb : b.text = .text text)
    (hmapping : a.includeMapping = b.includeMapping)
    (hp : (r.resolver.resolve a.hint).1 = .ok p) (hq : (r.resolver.resolve b.hint).1 = .ok q)
    (htree : parser.tree p text = parser.tree q text) (state : σ) :
    (r.redact parser b state).result =
        (r.redact parser a state).result.map (fun done => { done with profile := q.name }) ∧
      (r.redact parser b state).state = (r.redact parser a state).state := by
  rcases hresolveA : r.resolver.resolve a.hint with ⟨resultA, logA⟩
  rcases hresolveB : r.resolver.resolve b.hint with ⟨resultB, logB⟩
  obtain rfl : resultA = .ok p := by rw [← hp, hresolveA]
  obtain rfl : resultB = .ok q := by rw [← hq, hresolveB]
  obtain ⟨hresult, hstate⟩ := rename_congr htree r.supply state
  rw [redact, redact, ha, hb, hresolveA, hresolveB]
  cases hused : Registry.usable? (.text text) with
  | none => exact ⟨rfl, rfl⟩
  | some used =>
      obtain rfl : text = used := Value.text.inj (Registry.usable?_eq_some_iff.mp hused).1
      simp only [redactText, ← hresult, ← hstate, hmapping]
      cases (rename r.supply parser p text state).result with
      | error e => exact ⟨rfl, rfl⟩
      | ok done => exact ⟨rfl, rfl⟩

/-- A wider profile takes what the narrower takes and gives the same for it. What it takes beyond is
what the narrower does not admit. -/
theorem redact_of_widens (parser : Parser) (text : String) (root : ParseNode) (p q : Profile)
    (hp : parser p text = .ok root) (hq : parser q text = .ok root) (h : p.Widens root q) :
    (∀ tree, parser.tree p text = .ok tree ↔
      (∀ n ∈ root.preorder, p.Admits (encode text) n) ∧ parser.tree q text = .ok tree) ∧
    (∀ tree, parser.tree p text = .ok tree → ∀ (r : Redactor σ) (a b : Request) (state : σ),
      a.text = .text text → b.text = .text text → a.includeMapping = b.includeMapping →
      (r.resolver.resolve a.hint).1 = .ok p → (r.resolver.resolve b.hint).1 = .ok q →
        (r.redact parser b state).result =
            (r.redact parser a state).result.map (fun done => { done with profile := q.name }) ∧
          (r.redact parser b state).state = (r.redact parser a state).state) ∧
    (p.types = false ∨ q.tags = p.tags → q.grammarName = p.grammarName) := by
  have htree := Parser.tree_eq_ok_iff_admits hp hq fun n hn => h.admits hn
  refine ⟨htree, ?_, h.grammarName_eq⟩
  intro tree haccept r a b state ha hb hmapping hresolveA hresolveB
  have hsame : parser.tree p text = parser.tree q text :=
    haccept.trans ((htree tree).mp haccept).2.symm
  exact redact_congr r ha hb hmapping hresolveA hresolveB hsame state

def eitherRedactor : Redactor Nat where
  supply := .numbered
  resolver := ⟨[("module", { name := "module" }),
    ("script", { name := "script", sourceType := .script })], "module", .reject,
    { name := "module" }, rfl⟩
  includeMapping := true

theorem redact_of_widens_long :
    let parser : Parser := fun _ _ => .ok (Reading.assignment 2 5)
    let reply := fun hint => eitherRedactor.redact parser ⟨.text "é=sub_1.#é", .text hint, none⟩ 0
    parser.tree { name := "script", sourceType := .script } "é=sub_1.#é" =
        .ok ⟨Reading.assignmentNode 2 5 "é" "sub_1", encode "é=sub_1.#é"⟩ ∧
      (reply "script").result =
        (reply "module").result.map (fun done => { done with profile := "script" }) ∧
      (reply "script").state = (reply "module").state := by
  intro parser reply
  have hmodule : parser.tree { name := "module" } "é=sub_1.#é" =
      .ok ⟨Reading.assignmentNode 2 5 "é" "sub_1", encode "é=sub_1.#é"⟩ :=
    Parser.tree_eq_ok_iff.mpr ⟨_, _, rfl, Reading.long.converted, rfl⟩
  obtain ⟨htree, hredact, -⟩ := redact_of_widens parser "é=sub_1.#é" (Reading.assignment 2 5)
    { name := "module" } { name := "script", sourceType := .script } rfl rfl
    (.script "script" (by decide))
  exact ⟨((htree _).mp hmodule).2,
    hredact _ hmodule eitherRedactor ⟨_, .text "module", none⟩ ⟨_, .text "script", none⟩ 0 rfl rfl rfl
      rfl rfl⟩

end Redactor

end Pseudonym
