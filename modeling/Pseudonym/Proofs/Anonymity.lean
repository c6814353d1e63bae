import Pseudonym.Proofs.Reading

namespace Pseudonym

open Text Traversal

variable {σ : Type}

/-- Leaves that differ at most in their names. -/
structure Node.Disguise (f : String → String) (source source' : Bytes) (m n : Node) : Prop where
  bytes_eq : m.isRedactable = false →
    slice source m.start m.stop = slice source' n.start n.stop
  names_eq : m.isRedactable = true → ∃ name, name ≠ "" ∧ f name ≠ "" ∧ m.name = .text name ∧
    n.name = .text (f name) ∧ m.sigil = n.sigil

namespace Node.Disguise

variable {f : String → String} {source source' : Bytes} {m n : Node}

theorem usedName?_eq (h : Disguise f source source' m n) (hkind : m.kind = n.kind) :
    n.usedName? = m.usedName?.map f := by
  have hredactable : n.isRedactable = m.isRedactable := by rw [isRedactable, isRedactable, hkind]
  rw [usedName?, usedName?, hredactable]
  cases hm : m.isRedactable with
  | false => rfl
  | true =>
      obtain ⟨name, hne, hfne, hmname, hnname, -⟩ := h.names_eq hm
      simp [hmname, hnname, Registry.usable?, hne, hfne]

theorem newName?_eq (h : Disguise f source source' m n) (hkind : m.kind = n.kind) {r : Registry}
    {names : Set String} (hf : names.InjOn f) (hr : ∀ p ∈ r.pairs, p.1 ∈ names)
    (hmem : ∀ name, m.usedName? = some name → name ∈ names) :
    n.newName? (r.relabel f) = m.newName? r := by
  rw [newName?, newName?, h.usedName?_eq hkind]
  cases hused : m.usedName? with
  | none => rfl
  | some name =>
      rw [Option.map_some, Option.bind_some, Option.bind_some,
        Registry.find?_relabel hf hr (hmem name hused)]

theorem writtenAs_eq (h : Disguise f source source' m n) {r : Registry}
    (hfound : ∀ name, m.usedName? = some name → ∃ s, r.find? name = some s) :
    n.writtenAs source' (m.newName? r) = m.writtenAs source (m.newName? r) := by
  rw [newName?]
  cases hm : m.isRedactable with
  | false =>
      rw [usedName?_of_not_isRedactable hm]
      exact (h.bytes_eq hm).symm
  | true =>
      obtain ⟨name, hne, -, hmname, -, hsigil⟩ := h.names_eq hm
      have hsome : m.usedName? = some name := by simp [usedName?, hm, hmname, Registry.usable?, hne]
      obtain ⟨s, hs⟩ := hfound name hsome
      rw [hsome, Option.bind_some, hs, writtenAs, writtenAs, hsigil]

end Node.Disguise

namespace Reading

variable {parser parser' : Parser} {profile : Profile}

/-- Texts that differ in their names alone: one name stands where another stood, and different names
where different ones stood. -/
structure Disguise (f : String → String) (x : Reading parser profile)
    (y : Reading parser' profile) : Prop where
  shape : x.root.SameShape y.root
  gaps_eq : gaps x.source 0 x.spans = gaps y.source 0 y.spans
  leaves : List.Forall₂ (Node.Disguise f x.source y.source) x.node.leaves y.node.leaves
  injOn : {name | name ∈ x.names}.InjOn f

namespace Disguise

variable {f : String → String} {x : Reading parser profile} {y : Reading parser' profile}

theorem kinds_eq (h : Disguise f x y) : List.Forall₂
    (fun m n => m.kind = n.kind ∧ Node.Disguise f x.source y.source m n)
    x.node.leaves y.node.leaves :=
  List.Forall₂.mp (fun _ _ hsort hmn => ⟨hsort.kind, hmn⟩)
    (Convert.sameSort_leaves x.converted y.converted h.shape) h.leaves

theorem names_eq (h : Disguise f x y) : y.names = x.names.map f := by
  have hused : x.node.leaves.map (fun m => m.usedName?.map f) = y.node.leaves.map Node.usedName? :=
    map_eq_map_iff.mpr (h.kinds_eq.imp fun m n hmn => (hmn.2.usedName?_eq hmn.1).symm)
  have hnames := congrArg (List.filterMap id) hused
  rw [List.filterMap_map, List.filterMap_map] at hnames
  rw [names, names, List.map_filterMap]
  exact hnames.symm

theorem resolve_eq (h : Disguise f x y) (supply : Supply σ) (state : σ) :
    y.resolve supply state = ((x.resolve supply state).1,
      (x.resolve supply state).2.1.relabel f, (x.resolve supply state).2.2) := by
  rw [resolve, h.names_eq]
  exact Registry.substituteAll_relabel h.injOn supply {}
    (fun p hp => absurd hp List.not_mem_nil) state x.names fun name hname => hname

theorem newNames_eq (h : Disguise f x y) {r : Registry} (hr : ∀ p ∈ r.pairs, p.1 ∈ x.names) :
    List.Forall₂ (fun m n => n.newName? (r.relabel f) = m.newName? r)
      x.node.leaves y.node.leaves := by
  refine (forall₂_mem_left h.kinds_eq).imp ?_
  rintro m n ⟨hm, hkind, hmn⟩
  exact hmn.newName?_eq hkind h.injOn hr fun name hname => List.mem_filterMap.mpr ⟨m, hm, hname⟩

theorem splice_eq (h : Disguise f x y) {r : Registry} (hr : ∀ p ∈ r.pairs, p.1 ∈ x.names)
    (hfound : ∀ name ∈ x.names, ∃ s, r.find? name = some s) :
    splice y.source 0 (y.edits (r.relabel f)) = splice x.source 0 (x.edits r) := by
  apply splice_eq_of_gaps
  · rw [map_fst_edits, map_fst_edits]
    exact h.gaps_eq.symm
  · rw [edits, edits, List.map_map, List.map_map, eq_comm, map_eq_map_iff]
    refine List.Forall₂.mp ?_ (forall₂_mem_left h.leaves) (h.newNames_eq hr)
    rintro m n ⟨hm, hmn⟩ hnew
    rw [Function.comp_apply, Function.comp_apply, hnew]
    exact (hmn.writtenAs_eq fun name hname =>
      hfound name (List.mem_filterMap.mpr ⟨m, hm, hname⟩)).symm

theorem faults_eq (h : Disguise f x y) (writable : String → Bool) {r : Registry}
    (hr : ∀ p ∈ r.pairs, p.1 ∈ x.names) :
    y.node.leaves.findSome? (fun n => (n.newName? (r.relabel f)).bind (Node.faultOf writable)) =
      x.node.leaves.findSome? fun m => (m.newName? r).bind (Node.faultOf writable) := by
  have hnames : y.node.leaves.map (Node.newName? (r.relabel f)) = x.node.leaves.map (Node.newName? r) :=
    (map_eq_map_iff.mpr ((h.newNames_eq hr).imp fun _ _ hnew => hnew.symm)).symm
  have hfaults := congrArg (List.findSome? fun name => name.bind (Node.faultOf writable)) hnames
  rw [List.findSome?_map, List.findSome?_map] at hfaults
  exact hfaults

/-- Texts that differ in their names alone are renamed to the same text. The same names are drawn,
and they stand for the names that correspond to each other; or both requests fail alike. -/
theorem rename_eq (h : Disguise f x y) (supply : Supply σ)
    (hsupply : ∀ state s, (supply.draw state).1 = .ok s → s ≠ "") (state : σ) :
    (Redactor.rename supply parser' profile y.text state).state =
        (Redactor.rename supply parser profile x.text state).state ∧
      (Redactor.rename supply parser' profile y.text state).result =
        (Redactor.rename supply parser profile x.text state).result.map fun done =>
          { done with registry := done.registry.relabel f } := by
  have hresolve := h.resolve_eq supply state
  refine ⟨by rw [rename_state, rename_state, hresolve], ?_⟩
  rw [rename_result, rename_result, hresolve]
  rcases hx : x.resolve supply state with ⟨failure, r, next⟩
  have hpairs : ∀ p ∈ r.pairs, p.1 ∈ x.names ∧ p.2 ≠ "" :=
    x.forall_of_resolve (fun name hname state s hs => ⟨hname, hsupply state s hs⟩) hx
  cases failure with
  | some e => rfl
  | none =>
      have hrelabel : ∀ p ∈ (r.relabel f).pairs, p.2 ≠ "" := by
        intro p hp
        obtain ⟨q, hq, rfl⟩ := List.mem_map.mp hp
        exact (hpairs q hq).2
      have hfound := x.exists_find?_of_resolve hx
      have hfound' := y.exists_find?_of_resolve (hresolve.trans (by rw [hx]))
      have hkeys : ∀ p ∈ r.pairs, p.1 ∈ x.names := fun p hp => (hpairs p hp).1
      simp only
      rw [y.print_renamed_eq hfound' _ hrelabel, x.print_renamed_eq hfound _ fun p hp => (hpairs p hp).2,
        h.faults_eq _ hkeys, h.splice_eq hkeys hfound, h.names_eq, List.length_map]
      cases x.node.leaves.findSome? fun m => (m.newName? r).bind (Node.faultOf supply.writable) with
      | some e => rfl
      | none => cases decode (splice x.source 0 (x.edits r)) <;> rfl

end Disguise

def lengthen (name : String) : String := if name = "a" then "é" else "sub_1"

/-- One of the names is a substitute that is drawn before the name comes. -/
theorem rename_long :
    Disguise lengthen short long ∧
      (Redactor.rename Supply.numbered (fun _ _ => .ok (assignment 2 5))
          { name := "module" } "é=sub_1.#é" 0).result =
        (Redactor.rename Supply.numbered (fun _ _ => .ok (assignment 1 1))
          { name := "module" } "a=b.#a" 0).result.map fun done =>
            { done with registry := done.registry.relabel lengthen } := by
  have hdisguise : Disguise lengthen short long := by
    refine ⟨rfl, by decide, ?_, ?_⟩
    · exact .cons ⟨nofun, fun _ => ⟨"a", by decide, by decide, rfl, rfl, rfl⟩⟩
        (.cons ⟨fun _ => rfl, nofun⟩
        (.cons ⟨nofun, fun _ => ⟨"b", by decide, by decide, rfl, rfl, rfl⟩⟩
        (.cons ⟨fun _ => rfl, nofun⟩
        (.cons ⟨nofun, fun _ => ⟨"a", by decide, by decide, rfl, rfl, rfl⟩⟩ .nil))))
    · change ∀ a ∈ short.names, ∀ b ∈ short.names, lengthen a = lengthen b → a = b
      decide
  have hsupply : ∀ state s, (Supply.numbered.draw state).1 = .ok s → s ≠ "" := by
    intro state s hs
    obtain rfl := Except.ok.inj hs
    simp
  exact ⟨hdisguise, (Disguise.rename_eq hdisguise Supply.numbered hsupply 0).2⟩

end Reading

end Pseudonym
