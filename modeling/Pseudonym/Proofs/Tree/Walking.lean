import Pseudonym.Proofs.Tree.Printing

namespace Pseudonym

open Text

variable {σ : Type}

namespace Node

def usedNames (n : Node) : List String := n.preorder.filterMap usedName?

theorem usedNames_eq (n : Node) :
    n.usedNames = n.usedName?.toList ++ n.children.flatMap usedNames := by
  rw [usedNames, preorder_eq, ← List.singleton_append, List.filterMap_append, List.filterMap_flatMap]
  have hhead : [n].filterMap usedName? = n.usedName?.toList := by
    cases h : n.usedName? <;> simp [h]
  rw [hhead]
  rfl

/-- What a registry has for the name of a node. -/
def newName? (r : Registry) (n : Node) : Option String := n.usedName?.bind r.find?

/-- What a node is called when a registry has been asked for its name. -/
structure Takes (r : Registry) (n : Node) (name : Value) : Prop where
  kept : n.usedName? = none → name = n.name
  given : ∀ old, n.usedName? = some old → ∃ new, r.find? old = some new ∧ name = .text new

theorem Takes.eq {r : Registry} {n : Node} {name : Value} (h : n.Takes r name) :
    name = (n.newName? r).elim n.name .text := by
  rw [newName?]
  cases hu : n.usedName? with
  | none => exact h.kept hu
  | some old =>
      obtain ⟨new, hnew, hname⟩ := h.given old hu
      rw [Option.bind_some, hnew, hname]
      rfl

mutual

/-- The tree with the names that a registry has for those of the tree. -/
def renamed (r : Registry) : Node → Node
  | mk kind type start stop name sigil children =>
      let new := newName? r (mk kind type start stop name sigil children)
      mk kind type start stop (new.elim name .text) sigil (renamedAll r children)

def renamedAll (r : Registry) : List Node → List Node
  | [] => []
  | n :: ns => renamed r n :: renamedAll r ns

end

theorem renamedAll_eq (r : Registry) (ns : List Node) : renamedAll r ns = ns.map (renamed r) := by
  induction ns with
  | nil => rfl
  | cons n ns ih => rw [renamedAll, ih, List.map_cons]

theorem renamed_eq (r : Registry) (n : Node) :
    n.renamed r = mk n.kind n.type n.start n.stop ((n.newName? r).elim n.name .text) n.sigil
      (n.children.map (renamed r)) := by
  cases n with
  | mk => rw [renamed, renamedAll_eq]; rfl

theorem preorder_renamed (r : Registry) (n : Node) :
    (n.renamed r).preorder = n.preorder.map (renamed r) := by
  induction n using inductionOn with
  | h n ih =>
      have hchildren : (n.renamed r).children = n.children.map (renamed r) := by
        rw [renamed_eq]
        rfl
      rw [preorder_eq, preorder_eq n, hchildren, List.flatMap_map, List.map_cons, List.map_flatMap]
      congr 1
      exact List.flatMap_congr ih

theorem isLeaf_renamed (r : Registry) (n : Node) : (n.renamed r).isLeaf = n.isLeaf := by
  rw [renamed_eq, isLeaf, isLeaf]
  exact List.isEmpty_map

theorem leaves_renamed (r : Registry) (n : Node) :
    (n.renamed r).leaves = n.leaves.map (renamed r) := by
  rw [leaves, preorder_renamed, List.filter_map, leaves]
  congr 2
  funext m
  exact isLeaf_renamed r m

theorem span_renamed (r : Registry) (n : Node) : (n.renamed r).span = n.span := by
  rw [renamed_eq]
  rfl

theorem written_renamed_of_none (source : Bytes) {r : Registry} {n : Node}
    (h : n.newName? r = none) : (n.renamed r).written source = n.written source := by
  rw [renamed_eq, h]
  rfl

theorem usedName?_renamed_of_some {r : Registry} {n : Node} {new : String}
    (h : n.newName? r = some new) : (n.renamed r).usedName? = Registry.usable? (.text new) := by
  obtain ⟨old, hold, -⟩ := Option.bind_eq_some_iff.mp h
  have hredactable : n.kind.isRedactable = true := isRedactable_of_usedName? hold
  rw [renamed_eq, h, usedName?]
  exact if_pos hredactable

theorem name_renamed_of_some {r : Registry} {n : Node} {new : String}
    (h : n.newName? r = some new) : (n.renamed r).name = .text new := by
  rw [renamed_eq, h]
  rfl

theorem written_renamed_of_some (source : Bytes) {r : Registry} {n : Node} {new : String}
    (h : n.newName? r = some new) (hne : new ≠ "") :
    (n.renamed r).written source = encode (n.sigil ++ new) := by
  rw [written_eq _ _ (fun _ => .inr ⟨new, name_renamed_of_some h⟩), usedName?_renamed_of_some h,
    Registry.usable?_eq_some_iff.mpr ⟨rfl, hne⟩, renamed_eq]
  rfl

theorem fault?_renamed_of_none (writable : String → Bool) {r : Registry} {n : Node}
    (h : n.newName? r = none) : (n.renamed r).fault? writable = n.fault? writable := by
  rw [renamed_eq, h]
  rfl

/-- What stands in the way of a new name. The empty one is not written. -/
def faultOf (writable : String → Bool) (new : String) : Option Error :=
  if new = "" ∨ writable new = true then none else some (.unwritable new)

theorem fault?_renamed_of_some (writable : String → Bool) {r : Registry} {n : Node} {new : String}
    (h : n.newName? r = some new) : (n.renamed r).fault? writable = faultOf writable new := by
  rw [fault?_eq _ _ (fun _ => .inr ⟨new, name_renamed_of_some h⟩), usedName?_renamed_of_some h, faultOf]
  by_cases hne : new = ""
  · rw [hne]
    simp [Registry.usable?]
  · rw [Registry.usable?_eq_some_iff.mpr ⟨rfl, hne⟩, Option.bind_some]
    simp [hne]

theorem faultOf_eq_none_iff {writable : String → Bool} {new : String} :
    faultOf writable new = none ↔ new = "" ∨ writable new = true := by
  simp [faultOf, or_iff_not_imp_left]

end Node

namespace Convert.Made

variable {source : Bytes} {profile : Profile} {t : Task} {m : Node}

theorem written_renamed (h : Made source profile t m) {r : Registry}
    (hr : ∀ p ∈ r.pairs, p.2 ≠ "") :
    (m.renamed r).written source = m.writtenAs source (m.newName? r) := by
  cases hnew : m.newName? r with
  | none => rw [Node.written_renamed_of_none source hnew, h.written_eq, Node.writtenAs]
  | some new =>
      obtain ⟨old, -, hfind⟩ := Option.bind_eq_some_iff.mp hnew
      exact Node.written_renamed_of_some source hnew (hr _ (Registry.mem_of_find? hfind))

end Convert.Made

namespace Progress

/-- One progress comes from another by resolving names. -/
structure Follows (supply : Supply σ) (p : Progress σ) (names : List String) (q : Progress σ) :
    Prop where
  resolved : (q.failure, q.registry, q.state) = p.registry.substituteAll supply p.state names
  counted : q.failure = none → q.replaced = p.replaced + names.length

theorem Follows.append {supply : Supply σ} {p q q' : Progress σ} {names more : List String}
    (h : Follows supply p names q) (hgo : q.failure = none → Follows supply q more q')
    (hstop : q.failure ≠ none → q' = q) : Follows supply p (names ++ more) q' := by
  cases hq : q.failure with
  | none =>
      have h' := hgo hq
      constructor
      · rw [Registry.substituteAll_append, ← h.resolved, hq]
        exact h'.resolved
      · intro hq'
        rw [h'.counted hq', h.counted hq, List.length_append, Nat.add_assoc]
  | some e =>
      obtain rfl := hstop (by rw [hq]; exact Option.some_ne_none e)
      constructor
      · rw [Registry.substituteAll_append, ← h.resolved, hq]
      · intro hq'
        rw [hq] at hq'
        cases hq'

end Progress

namespace Progress

theorem rename_of_failure (supply : Supply σ) {p : Progress σ} (h : p.failure ≠ none) (n : Node) :
    p.rename supply n.kind n.type n.start n.name = (n.name, p) := by
  have hs : p.failure.isSome = true := Option.isSome_iff_ne_none.mpr h
  rw [rename, hs, Bool.true_or, if_pos rfl]

theorem rename_of_unused (supply : Supply σ) {p : Progress σ} (h : p.failure = none) {n : Node}
    (hu : n.usedName? = none) :
    p.rename supply n.kind n.type n.start n.name = (n.name, p) ∨
      p.rename supply n.kind n.type n.start n.name = (n.name, p.skipped n.type n.start) := by
  rw [Node.usedName?, Node.isRedactable] at hu
  rw [rename, h]
  cases hk : n.kind.isRedactable with
  | false => exact .inl rfl
  | true =>
      rw [hk, if_pos rfl] at hu
      rw [hu]
      exact .inr rfl

theorem rename_of_used (supply : Supply σ) {p : Progress σ} (h : p.failure = none) {n : Node}
    {old : String} (hu : n.usedName? = some old) :
    p.rename supply n.kind n.type n.start n.name =
      match p.registry.substitute supply old p.state with
      | (.ok new, registry, state) =>
          (.text new, { p with registry, state, replaced := p.replaced + 1 })
      | (.error e, registry, state) => (n.name, { p with registry, state, failure := some e }) := by
  rw [Node.usedName?, Node.isRedactable] at hu
  split at hu
  next hk =>
    rw [rename, h, hk, hu]
    rfl
  next => cases hu

theorem rename_follows (supply : Supply σ) {p : Progress σ} (h : p.failure = none) (n : Node) :
    p.Follows supply n.usedName?.toList (p.rename supply n.kind n.type n.start n.name).2 := by
  cases hu : n.usedName? with
  | none =>
      have hstay : p.Follows supply [] p := ⟨by rw [h]; rfl, fun _ => rfl⟩
      rcases rename_of_unused supply h hu with hr | hr <;> rw [hr]
      · exact hstay
      · exact ⟨hstay.resolved, hstay.counted⟩
  | some old =>
      rw [rename_of_used supply h hu]
      rcases hs : p.registry.substitute supply old p.state with ⟨e | new, registry, state⟩
      · exact ⟨by simp [Registry.substituteAll, hs], fun hf => by cases hf⟩
      · exact ⟨by simp [Registry.substituteAll, hs, h], fun _ => rfl⟩

/-- The name that one node gets in a walk that does not fail. -/
theorem rename_takes (supply : Supply σ) {p : Progress σ} (h : p.failure = none) (n : Node)
    (hf : (p.rename supply n.kind n.type n.start n.name).2.failure = none) {r : Registry}
    (hr : (p.rename supply n.kind n.type n.start n.name).2.registry.pairs <+: r.pairs) :
    n.Takes r (p.rename supply n.kind n.type n.start n.name).1 := by
  constructor
  · intro hu
    rcases rename_of_unused supply h hu with hs | hs <;> rw [hs]
  · intro old hu
    rw [rename_of_used supply h hu] at hf hr ⊢
    rcases hs : p.registry.substitute supply old p.state with ⟨e | new, registry, state⟩
    · rw [hs] at hf
      cases hf
    · rw [hs] at hr
      exact ⟨new, Registry.find?_of_isPrefix hr (Registry.find?_of_substitute hs), rfl⟩

end Progress

namespace Node

theorem walk_eq (supply : Supply σ) (p : Progress σ) (n : Node) :
    n.walk supply p =
      let (name, p) := p.rename supply n.kind n.type n.start n.name
      let (children, p) := walkAll supply p n.children
      (mk n.kind n.type n.start n.stop name n.sigil children, p) := by
  cases n with
  | mk => rw [walk]; rfl

/-- A walk that has failed changes nothing. -/
theorem walk_of_failure (supply : Supply σ) {p : Progress σ} (h : p.failure ≠ none) :
    (∀ n : Node, n.walk supply p = (n, p)) ∧ ∀ ns : List Node, walkAll supply p ns = (ns, p) := by
  apply mutualInduction
  · intro n hall
    rw [walk_eq, Progress.rename_of_failure supply h]
    simp only [hall]
    cases n; rfl
  · rw [walkAll]
  · intro n ns hn hns
    rw [walkAll, hn]
    simp only [hns]

theorem walk_follows (supply : Supply σ) :
    (∀ n : Node, ∀ p : Progress σ, p.failure = none →
      p.Follows supply n.usedNames (n.walk supply p).2) ∧
    ∀ ns : List Node, ∀ p : Progress σ, p.failure = none →
      p.Follows supply (ns.flatMap usedNames) (walkAll supply p ns).2 := by
  apply mutualInduction
  · intro n hall p hp
    rw [usedNames_eq, walk_eq]
    refine (Progress.rename_follows supply hp n).append (fun hq => hall _ hq) fun hq => ?_
    simp only [(walk_of_failure supply hq).2]
  · intro p hp
    exact ⟨by rw [walkAll, hp]; rfl, fun _ => rfl⟩
  · intro n ns hn hns p hp
    rw [List.flatMap_cons, walkAll]
    refine (hn p hp).append (fun hq => hns _ hq) fun hq => ?_
    simp only [(walk_of_failure supply hq).2]

theorem walkAll_failure (supply : Supply σ) {p : Progress σ} {ns : List Node}
    (h : (walkAll supply p ns).2.failure = none) : p.failure = none := by
  by_contra hp
  rw [(walk_of_failure supply hp).2] at h
  exact hp h

theorem walkAll_isPrefix (supply : Supply σ) {p : Progress σ} {ns : List Node}
    (h : (walkAll supply p ns).2.failure = none) :
    p.registry.pairs <+: (walkAll supply p ns).2.registry.pairs := by
  have hfollows := (walk_follows supply).2 ns p (walkAll_failure supply h)
  have hregistry := congrArg (·.2.1) hfollows.resolved
  simp only at hregistry
  rw [hregistry]
  exact Registry.substituteAll_isPrefix _ _ _ _

theorem walk_renamed (supply : Supply σ) :
    (∀ n : Node, ∀ (p : Progress σ) (r : Registry), p.failure = none →
      (n.walk supply p).2.failure = none → (n.walk supply p).2.registry.pairs <+: r.pairs →
        (n.walk supply p).1 = n.renamed r) ∧
    ∀ ns : List Node, ∀ (p : Progress σ) (r : Registry),
      (walkAll supply p ns).2.failure = none → (walkAll supply p ns).2.registry.pairs <+: r.pairs →
        (walkAll supply p ns).1 = ns.map (renamed r) := by
  apply mutualInduction
  · intro n hall p r hp
    rw [walk_eq, renamed_eq]
    intro hf hr
    -- What the registry learns below the node does not change what it has for the node.
    have hname := (Progress.rename_takes supply hp n (walkAll_failure supply hf)
      ((walkAll_isPrefix supply hf).trans hr)).eq
    simp only [hname, hall _ r hf hr]
  · intro p r _ _
    rw [walkAll, List.map_nil]
  · intro n ns hn hns p r
    rw [walkAll, List.map_cons]
    intro hf hr
    have hfn := walkAll_failure supply hf
    have hp : p.failure = none := by
      by_contra hp
      rw [(walk_of_failure supply hp).1] at hfn
      exact hp hfn
    simp only [hn p r hp hfn ((walkAll_isPrefix supply hf).trans hr), hns _ r hf hr]

end Node

end Pseudonym
