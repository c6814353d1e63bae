import Mathlib.Data.List.Pairwise
import Pseudonym.Proofs.Reading
import Pseudonym.Proofs.Tree.Rules

namespace Pseudonym

open Text Traversal

namespace Convert.Task

/-- Tasks of one shape with leaves in step. -/
structure Matched (P : Task → Task → Prop) (t u : Task) : Prop where
  alike : t.Alike u
  leaves : List.Forall₂ P t.leaves u.leaves

theorem leaves_of_isEmpty {t : Task} (h : t.node.children.isEmpty = true) : t.leaves = [t] := by
  have hchildren : t.children = [] := by
    rw [children, List.isEmpty_iff.mp h, List.map_nil]
  rw [leaves, all_eq, hchildren, List.flatMap_nil]
  exact List.filter_cons_of_pos (p := fun u : Task => u.node.children.isEmpty) h

theorem leaves_of_not_isEmpty {t : Task} (h : t.node.children.isEmpty = false) :
    t.leaves = t.children.flatMap leaves := by
  rw [leaves, all_eq, List.filter_cons_of_neg (by simp [h]), List.filter_flatMap]
  rfl

theorem mem_all_trans {s t u : Task} (hu : u ∈ t.all) (ht : t ∈ s.all) : u ∈ s.all := by
  induction s using Task.inductionOn with
  | h s ih =>
      rw [all_eq] at ht
      rcases List.mem_cons.mp ht with rfl | ht
      · exact hu
      · obtain ⟨c, hc, htc⟩ := List.mem_flatMap.mp ht
        rw [all_eq]
        exact List.mem_cons_of_mem s (List.mem_flatMap.mpr ⟨c, hc, ih c hc htc⟩)

theorem mem_all_self (t : Task) : t ∈ t.all := by
  rw [all_eq]
  exact List.mem_cons_self

theorem mem_all_of_mem_children {t c : Task} (hc : c ∈ t.children) : c ∈ t.all := by
  rw [all_eq]
  exact List.mem_cons_of_mem t (List.mem_flatMap.mpr ⟨c, hc, c.mem_all_self⟩)

namespace Matched

variable {P : Task → Task → Prop} {t u : Task}

theorem leaf (h : Matched P t u) (hleaf : t.node.children.isEmpty = true) : P t u := by
  have hleaves := h.leaves
  rw [leaves_of_isEmpty hleaf, leaves_of_isEmpty (h.alike.isEmpty_children ▸ hleaf)] at hleaves
  exact (List.forall₂_cons.mp hleaves).1

theorem children (h : Matched P t u) : List.Forall₂ (Matched P) t.children u.children := by
  cases hleaf : t.node.children.isEmpty with
  | true =>
      have hu : u.node.children.isEmpty = true := h.alike.isEmpty_children ▸ hleaf
      rw [Task.children, Task.children, List.isEmpty_iff.mp hleaf, List.isEmpty_iff.mp hu]
      exact .nil
  | false =>
      have hleaves := h.leaves
      rw [leaves_of_not_isEmpty hleaf,
        leaves_of_not_isEmpty (h.alike.isEmpty_children ▸ hleaf)] at hleaves
      exact (forall₂_of_flatMap (fun _ _ hab => hab.leaves.length_eq) h.alike.children hleaves).imp
        fun _ _ hab => ⟨hab.1, hab.2⟩

theorem all (h : Matched P t u) : List.Forall₂ (Matched P) t.all u.all :=
  forall₂_all (fun _ _ hab => hab.children) h

/-- Matching nodes have matching children, also where the tasks are left out of view. -/
theorem hereditary (P : Task → Task → Prop) (t : Task) :
    Rules.Hereditary fun a b => ∃ v ∈ t.all, ∃ w, v.Matched P w ∧ v.node = a ∧ w.node = b := by
  constructor
  · rintro _ _ ⟨v, -, w, hvw, rfl, rfl⟩
    exact hvw.alike.shape
  · rintro _ _ ⟨v, hv, w, hvw, rfl, rfl⟩
    rw [← v.map_node_children, ← w.map_node_children, List.forall₂_map_left_iff,
      List.forall₂_map_right_iff]
    exact (forall₂_mem_left hvw.children).imp fun c d hcd =>
      ⟨c, mem_all_trans (mem_all_of_mem_children hcd.1) hv, d, hcd.2, rfl, rfl⟩

end Matched

end Convert.Task

theorem Rules.textOf_congr {source source' : Bytes} {a b : ParseNode}
    (h : slice source a.start a.stop = slice source' b.start b.stop) :
    Rules.textOf source a = Rules.textOf source' b := by
  rw [textOf, textOf, h]

open Pseudonym.Convert (Task Made identifierKind?)
open Rules (textOf Declared declaredNames Clash)

namespace Reading

variable {parser : Parser} {profile : Profile} (x : Reading parser profile)

/-- A leaf, and the leaf that stands for it in the text renamed by a registry. -/
def Rewritten (r : Registry) (source : Bytes) (t u : Task) : Prop :=
  ∃ m ∈ x.node.leaves, Made x.source profile t m ∧
    slice source u.node.start u.node.stop = m.writtenAs x.source (m.newName? r)

/-- Two declared names that differ and have the same substitute, where one of them is lexical. -/
def Collide (r : Registry) (d e : Declared) : Prop :=
  (d.isLexical = true ∨ e.isLexical = true) ∧ ∃ s t new, textOf x.source d.node = .ok s ∧
    textOf x.source e.node = .ok t ∧ s ≠ t ∧ r.find? s = some new ∧ r.find? t = some new

theorem matched_root {r : Registry} {source : Bytes} {root' : ParseNode}
    (hsource : source = splice x.source 0 (x.edits r)) (hshape : x.root.SameShape root')
    (hspans : root'.leaves.map ParseNode.span = moved 0 0 (x.edits r)) :
    (Task.root x.root).Matched (x.Rewritten r source) (Task.root root') := by
  refine ⟨Task.alike_root hshape, ?_⟩
  have horder := x.inOrder_edits r
  have hpieces : (Task.root root').leaves.map (fun u => slice source u.node.start u.node.stop) =
      x.node.leaves.map fun m => m.writtenAs x.source (m.newName? r) := by
    -- A leaf lies where a piece was put, so it holds that piece.
    have hmoved := slice_moved x.source (x.edits r) horder 0 (fun _ _ => Nat.zero_le _) []
    have hleaves : root'.leaves = (Task.root root').leaves.map Task.node :=
      (Task.map_node_leaves (Task.root root')).symm
    rw [List.length_nil, List.nil_append, ← hsource, ← hspans, hleaves, edits, List.map_map,
      List.map_map, List.map_map] at hmoved
    exact hmoved
  have hwritten := forall₂_mem_left (map_eq_map_iff.mp hpieces.symm)
  exact forall₂_transfer (S := Eq) (fun m t u v hmade huv hw => huv ▸ ⟨m, hw.1, hmade, hw.2.symm⟩)
    (Convert.forall₂_made_leaves x.converted).flip (List.forall₂_refl _) hwritten

theorem stop_le_of_mem_leaves {m : Node} (hm : m ∈ x.node.leaves) : m.stop ≤ x.source.length :=
  (x.inOrder.bounds m.span (x.span_mem_spans hm)).2

namespace Rewritten

variable {x} {r : Registry} {source : Bytes} {t u : Task}

/-- What is no identifier, or part of the name of a tag, is left as it is. -/
theorem textOf_eq (h : x.Rewritten r source t u)
    (hkept : identifierKind? t.node.type = none ∨ t.inName = true) :
    textOf source u.node = textOf x.source t.node := by
  obtain ⟨m, -, hmade, hslice⟩ := h
  have hr : m.isRedactable = false := by
    rw [hmade.isRedactable_eq]
    rcases hkept with hkept | hkept <;> simp [hkept]
  have hnew : m.newName? r = none := by
    rw [Node.newName?, Node.usedName?_of_not_isRedactable hr]
    rfl
  rw [hnew] at hslice
  exact Rules.textOf_congr (hslice.trans hmade.slice_eq)

theorem exists_textOf (h : x.Rewritten r source t u)
    (hr : (Convert.kindOf t.inName t.node).isRedactable = true) :
    ∃ text, textOf source u.node = .ok text := by
  obtain ⟨m, -, hmade, hslice⟩ := h
  cases hnew : m.newName? r with
  | some new =>
      rw [hnew] at hslice
      exact ⟨_, Convert.textOf_eq_ok_iff.mpr hslice⟩
  | none =>
      rw [hnew] at hslice
      rw [← hmade.kind_eq] at hr
      obtain ⟨text, htext, -⟩ := hmade.identifier hr
      exact ⟨text, (Rules.textOf_congr (hslice.trans hmade.slice_eq)).trans htext⟩

/-- An identifier without a sigil has its substitute for text. -/
theorem textOf_renamed (h : x.Rewritten r source t u)
    (hfound : ∀ name ∈ x.names, ∃ s, r.find? name = some s) {kind : Kind}
    (hkind : identifierKind? t.node.type = some kind) (hprivate : kind ≠ .privateProperty)
    (hname : t.inName = false) (hspan : t.node.start < t.node.stop) :
    ∃ old new, textOf x.source t.node = .ok old ∧ r.find? old = some new ∧
      textOf source u.node = .ok new := by
  obtain ⟨m, hm, hmade, hslice⟩ := h
  have hleaf : m.isLeaf = true := (List.mem_filter.mp hm).2
  have hr : m.isRedactable = true := by
    rw [hmade.isRedactable_eq, hleaf, hkind, hname]
    rfl
  have hmkind : m.kind = kind := by
    rw [hmade.kind_eq, hname]
    exact Convert.kindOf_of_identifier (hmade.isLeaf_eq ▸ hleaf) hkind
  obtain ⟨old, hold, hsigil, hmname⟩ := hmade.identifier hr
  rw [hmkind, Convert.splitSigil_of_ne hprivate] at hsigil hmname
  -- The text is not empty, for the leaf is not.
  have hne : old.isEmpty = false := by
    have hlength := congrArg List.length (Convert.textOf_eq_ok_iff.mp hold)
    have hstop : t.node.stop ≤ x.source.length := by
      rw [← (Span.mk.inj hmade.span_eq).2]
      exact x.stop_le_of_mem_leaves hm
    rw [length_slice hstop] at hlength
    rw [Bool.eq_false_iff, Ne, String.isEmpty_iff]
    rintro rfl
    exact absurd hlength (Nat.sub_ne_zero_of_lt hspan)
  have hused : m.usedName? = some old := by
    rw [Node.usedName?, if_pos hr, hmname]
    simp [Registry.usable?, hne]
  obtain ⟨new, hnew⟩ := hfound old (List.mem_filterMap.mpr ⟨m, hm, hused⟩)
  rw [Node.newName?, hused, Option.bind_some, hnew] at hslice
  refine ⟨old, new, hold, hnew, Convert.textOf_eq_ok_iff.mpr ?_⟩
  rw [hslice, Node.writtenAs, hsigil, String.empty_append]

end Rewritten

/-- The tree of a renamed text beside the tree of the text. -/
structure Reread (r : Registry) (source : Bytes) (root' : ParseNode) : Prop where
  identifiers : ∀ n ∈ x.root.preorder, (identifierKind? n.type).isSome = true →
    n.children.isEmpty = true ∧ n.start < n.stop
  declarations : ∀ t ∈ (Task.root x.root).all, t.node.type ∈ Rules.blockTypes →
    ∀ d ∈ declaredNames t.node, ∀ u ∈ t.all, u.node = d.node → u.inName = false
  found : ∀ name ∈ x.names, ∃ s, r.find? name = some s
  words : ∀ p ∈ r.pairs, p.2 ∉ Rules.reservedWords
  matched : (Task.root x.root).Matched (x.Rewritten r source) (Task.root root')

/-- A declared name and the one that stands for it. -/
def Redeclared (r : Registry) (source : Bytes) (d e : Declared) : Prop :=
  d.isLexical = e.isLexical ∧ ∃ old new, textOf x.source d.node = .ok old ∧
    r.find? old = some new ∧ textOf source e.node = .ok new

theorem identifierKind?_of_binding {type : String} (h : type ∈ Rules.bindingTypes) :
    ∃ kind, identifierKind? type = some kind ∧ kind ≠ .privateProperty := by
  have hall : ∀ type ∈ Rules.bindingTypes, identifierKind? type = some .identifier ∨
      identifierKind? type = some .shorthandProperty := by decide
  rcases hall type h with h | h
  · exact ⟨_, h, by decide⟩
  · exact ⟨_, h, by decide⟩

theorem identifierKind?_of_isSimpleName {n : ParseNode} (h : Rules.isSimpleName n = true) :
    ∃ kind, identifierKind? n.type = some kind ∧ kind ≠ .privateProperty := by
  rw [Rules.isSimpleName, Bool.or_eq_true, decide_eq_true_iff, decide_eq_true_iff] at h
  rcases h with h | h
  · exact ⟨.identifier, by rw [h]; rfl, by decide⟩
  · exact ⟨.typeIdentifier, by rw [h]; rfl, by decide⟩

namespace Reread

variable {x} {r : Registry} {source : Bytes} {root' : ParseNode} {t u : Task}

theorem map_node_all : (Task.root x.root).all.map Task.node = x.root.preorder :=
  Task.map_node_all (Task.root x.root)

theorem checkStrict (h : x.Reread r source root') (ht : t ∈ (Task.root x.root).all)
    (hmatched : t.Matched (x.Rewritten r source) u)
    (hstrict : Rules.checkStrict x.source t.node = .ok ()) :
    Rules.checkStrict source u.node = .ok () := by
  rw [Rules.checkStrict_eq_ok_iff] at hstrict ⊢
  rw [← hmatched.alike.shape.type, ← hmatched.alike.isEmpty_children]
  refine ⟨hstrict.1, fun hleaf => ⟨fun hbinding => ?_, fun hnumber => ?_⟩⟩
  · obtain ⟨text, htext, hword⟩ := (hstrict.2 hleaf).1 hbinding
    obtain ⟨kind, hkind, hprivate⟩ := identifierKind?_of_binding hbinding
    cases hname : t.inName with
    | true => exact ⟨text, ((hmatched.leaf hleaf).textOf_eq (.inr hname)).trans htext, hword⟩
    | false =>
        have hspan := (h.identifiers t.node (Task.node_mem_preorder ht) (by rw [hkind]; rfl)).2
        obtain ⟨old, new, -, hnew, htext⟩ :=
          (hmatched.leaf hleaf).textOf_renamed h.found hkind hprivate hname hspan
        exact ⟨new, htext, h.words _ (Registry.mem_of_find? hnew)⟩
  · obtain ⟨text, htext, hoctal⟩ := (hstrict.2 hleaf).2 hnumber
    have hkind : identifierKind? t.node.type = none := by rw [hnumber]; rfl
    exact ⟨text, ((hmatched.leaf hleaf).textOf_eq (.inl hkind)).trans htext, hoctal⟩

/-- The blocks of the renamed text declare the substitutes of what the blocks of the text declare. -/
theorem redeclared (h : x.Reread r source root') (ht : t ∈ (Task.root x.root).all)
    (hblock : t.node.type ∈ Rules.blockTypes) (hmatched : t.Matched (x.Rewritten r source) u) :
    List.Forall₂ (x.Redeclared r source) (declaredNames t.node) (declaredNames u.node) := by
  have hdeclared := (Task.Matched.hereditary (x.Rewritten r source) t).declaredNames
    ⟨t, t.mem_all_self, u, hmatched, rfl, rfl⟩
  refine (forall₂_mem_left hdeclared).imp ?_
  rintro d e ⟨hd, ⟨v, hv, w, hvw, hvd, hwe⟩, hlexical⟩
  refine ⟨hlexical, ?_⟩
  obtain ⟨kind, hkind, hprivate⟩ :=
    identifierKind?_of_isSimpleName (Rules.isSimpleName_of_mem_declaredNames hd)
  have hname := h.declarations t ht hblock d hd v hv hvd
  rw [← hvd] at hkind ⊢
  rw [← hwe]
  obtain ⟨hleaf, hspan⟩ :=
    h.identifiers v.node (Task.node_mem_preorder (Task.mem_all_trans hv ht)) (by rw [hkind]; rfl)
  exact (hvw.leaf hleaf).textOf_renamed h.found hkind hprivate hname hspan

end Reread

/-- Declarations come to clash if they did so before or if they collide. -/
theorem Redeclared.clash_iff {x : Reading parser profile} {r : Registry} {source : Bytes}
    {d e d' e' : Declared} (h : x.Redeclared r source d e) (h' : x.Redeclared r source d' e') :
    Clash source e e' ↔ Clash x.source d d' ∨ x.Collide r d d' := by
  obtain ⟨hlexical, old, new, hold, hnew, htext⟩ := h
  obtain ⟨hlexical', old', new', hold', hnew', htext'⟩ := h'
  rw [Clash, Clash, Collide, hlexical, hlexical']
  constructor
  · rintro ⟨hor, name, hname, hname'⟩
    obtain rfl : new = name := Except.ok.inj (htext.symm.trans hname)
    obtain rfl : new' = new := Except.ok.inj (htext'.symm.trans hname')
    by_cases hsame : old = old'
    · exact .inl ⟨hor, old, hold, hsame ▸ hold'⟩
    · exact .inr ⟨hor, old, old', new', hold, hold', hsame, hnew, hnew'⟩
  · rintro (⟨hor, name, hname, hname'⟩ | ⟨hor, s, t, g, hs, ht, -, hgs, hgt⟩)
    · obtain rfl : old = name := Except.ok.inj (hold.symm.trans hname)
      obtain rfl : old' = old := Except.ok.inj (hold'.symm.trans hname')
      obtain rfl : new = new' := Option.some.inj (hnew.symm.trans hnew')
      exact ⟨hor, new, htext, htext'⟩
    · obtain rfl : old = s := Except.ok.inj (hold.symm.trans hs)
      obtain rfl : old' = t := Except.ok.inj (hold'.symm.trans ht)
      obtain rfl : new = g := Option.some.inj (hnew.symm.trans hgs)
      obtain rfl : new' = new := Option.some.inj (hnew'.symm.trans hgt)
      exact ⟨hor, new', htext, htext'⟩

theorem Collide.symm {x : Reading parser profile} {r : Registry} {d e : Declared}
    (h : x.Collide r d e) : x.Collide r e d := by
  obtain ⟨hor, s, t, new, hs, ht, hne, hnew, hnew'⟩ := h
  exact ⟨hor.symm, t, s, new, ht, hs, hne.symm, hnew', hnew⟩

theorem not_collide_self (r : Registry) (d : Declared) : ¬ x.Collide r d d := by
  rintro ⟨-, s, t, -, hs, ht, hne, -, -⟩
  exact hne (Except.ok.inj (hs.symm.trans ht))

theorem pairwise_clash_iff {r : Registry} {source : Bytes} {ds es : List Declared}
    (h : List.Forall₂ (x.Redeclared r source) ds es)
    (hclash : ds.Pairwise fun d e => ¬ Clash x.source d e) :
    (es.Pairwise fun d e => ¬ Clash source d e) ↔ ∀ d ∈ ds, ∀ e ∈ ds, ¬ x.Collide r d e := by
  constructor
  · intro hes
    have hds : ds.Pairwise fun d e => ¬ x.Collide r d e :=
      pairwise_of_forall₂ (R := flip (x.Redeclared r source))
        (fun _ _ _ _ hd he hde hcollide => hde ((hd.clash_iff he).mpr (.inr hcollide))) h.flip hes
    -- Names collide in either order and no name collides with itself.
    have hsymm : Std.Symm fun d e => ¬ x.Collide r d e := ⟨fun d e hde hed => hde hed.symm⟩
    intro d hd e he
    exact hds.forall_of_forall (fun d _ => x.not_collide_self r d) hd he
  · intro hcollide
    have hds : ds.Pairwise fun d e => ¬ (Clash x.source d e ∨ x.Collide r d e) :=
      hclash.imp_of_mem fun hd he hde hor => hor.elim hde (hcollide _ hd _ he)
    exact pairwise_of_forall₂ (fun _ _ _ _ hd he hde hclash => hde ((hd.clash_iff he).mp hclash)) h
      hds

def Collision (r : Registry) : Prop :=
  ∃ block ∈ x.root.preorder, block.type ∈ Rules.blockTypes ∧
    ∃ d ∈ declaredNames block, ∃ e ∈ declaredNames block, x.Collide r d e

def CollisionFree (r : Registry) (n : ParseNode) : Prop :=
  n.type ∈ Rules.blockTypes →
    ∀ d ∈ declaredNames n, ∀ e ∈ declaredNames n, ¬ x.Collide r d e

theorem not_collision_iff (r : Registry) :
    ¬ x.Collision r ↔ ∀ n ∈ x.root.preorder, x.CollisionFree r n := by
  simp only [Collision, CollisionFree, not_exists, not_and]

namespace Reread

variable {x} {r : Registry} {source : Bytes} {root' : ParseNode} {t u : Task}

/-- A node that was taken is taken again unless names that it declares collide. -/
theorem checkNode_iff (h : x.Reread r source root') (ht : t ∈ (Task.root x.root).all)
    (hmatched : t.Matched (x.Rewritten r source) u)
    (hcheck : Rules.checkNode x.source profile t.context t.node = .ok ()) :
    Rules.checkNode source profile u.context u.node = .ok () ↔ x.CollisionFree r t.node := by
  have hshape := hmatched.alike.shape
  rw [Rules.checkNode_eq_ok_iff] at hcheck ⊢
  obtain ⟨herror, hmissing, htags, hmodule, hstrict, hjump, hdeclarations⟩ := hcheck
  have hjump' : Rules.checkJump u.context u.node = .ok () := by
    rw [Rules.checkJump_eq_ok_iff] at hjump ⊢
    rwa [← hmatched.alike.context_eq, ← Rules.jumpAllowed_eq hshape, ← hshape.type]
  have hdeclarations' : t.node.type ∈ Rules.blockTypes →
      (Rules.checkDeclarations source u.node = .ok () ↔
        ∀ d ∈ declaredNames t.node, ∀ e ∈ declaredNames t.node, ¬ x.Collide r d e) := by
    intro hblock
    have hredeclared := h.redeclared ht hblock hmatched
    rw [← pairwise_clash_iff x hredeclared
      (Rules.checkDeclarations_eq_ok_iff.mp (hdeclarations hblock)).2,
      Rules.checkDeclarations_eq_ok_iff, and_iff_right]
    intro e he
    obtain ⟨d, -, -, -, new, -, -, htext⟩ := forall₂_exists_left hredeclared he
    exact ⟨new, htext⟩
  rw [← hshape.type, ← hshape.isMissing]
  constructor
  · rintro ⟨-, -, -, -, -, -, hnew⟩ hblock
    exact (hdeclarations' hblock).mp (hnew hblock)
  · intro hcollide
    exact ⟨herror, hmissing, htags, hmodule, fun hm => h.checkStrict ht hmatched (hstrict hm), hjump',
      fun hblock => (hdeclarations' hblock).mpr (hcollide hblock)⟩

theorem exists_makeNode (hmatched : t.Matched (x.Rewritten r source) u) :
    ∃ m, Convert.makeNode source u.inName u.node = .ok m := by
  rw [Convert.makeNode_eq, ← hmatched.alike.kindOf_eq]
  split
  next hr =>
    have hleaf : t.node.children.isEmpty = true := by
      rw [Convert.isRedactable_kindOf, Bool.and_eq_true, Bool.and_eq_true] at hr
      exact hr.1.1
    obtain ⟨text, htext⟩ := (hmatched.leaf hleaf).exists_textOf hr
    rw [htext]
    exact ⟨_, rfl⟩
  next => exact ⟨_, rfl⟩

theorem exists_visit_iff (h : x.Reread r source root') (ht : t ∈ (Task.root x.root).all)
    (hmatched : t.Matched (x.Rewritten r source) u) :
    x.CollisionFree r t.node ↔
      ∃ m, Convert.visit source profile u.inName u.context u.node = .ok m := by
  obtain ⟨m, hm⟩ := Convert.exists_convert_iff.mp ⟨x.node, x.converted⟩ t ht
  obtain ⟨m', hm'⟩ := exists_makeNode hmatched
  rw [← h.checkNode_iff ht hmatched (Convert.visit_eq_ok_iff.mp hm).1]
  simp only [Convert.visit_eq_ok_iff]
  exact ⟨fun hcheck => ⟨m', hcheck, hm'⟩, fun ⟨_, hcheck, _⟩ => hcheck⟩

theorem exists_convert_iff (h : x.Reread r source root') :
    (∃ node, Convert.convert source profile root' = .ok node) ↔ ¬ x.Collision r := by
  have hnodes : (∀ n ∈ x.root.preorder, x.CollisionFree r n) ↔
      ∀ t ∈ (Task.root x.root).all, x.CollisionFree r t.node := by
    rw [← map_node_all, List.forall_mem_map]
  have hvisits : List.Forall₂ (fun t u : Task => x.CollisionFree r t.node ↔
      ∃ m, Convert.visit source profile u.inName u.context u.node = .ok m)
      (Task.root x.root).all (Task.root root').all :=
    (forall₂_mem_left h.matched.all).imp fun _ _ htu => h.exists_visit_iff htu.1 htu.2
  rw [Convert.exists_convert_iff, ← forall_iff_of_forall₂ hvisits, not_collision_iff, hnodes]

end Reread

/-- A redacted text is taken again exactly if no block declares two names that collide, and then with
the same kinds and types everywhere. So it is taken whenever no substitute is used twice. -/
theorem exists_tree_redacted_iff {σ : Type} (supply : Supply σ) (state : σ)
    (done : Redactor.Renamed) (root' : ParseNode)
    (hidentifiers : ∀ n ∈ x.root.preorder, (identifierKind? n.type).isSome = true →
      n.children.isEmpty = true ∧ n.start < n.stop)
    (hdeclarations : ∀ t ∈ (Task.root x.root).all, t.node.type ∈ Rules.blockTypes →
      ∀ d ∈ declaredNames t.node, ∀ u ∈ t.all, u.node = d.node → u.inName = false)
    (hdone : (Redactor.rename supply parser profile x.text state).result = .ok done)
    (hwords : ∀ p ∈ done.registry.pairs, p.2 ≠ "" ∧ p.2 ∉ Rules.reservedWords)
    (hparsed : parser profile done.code = .ok root') (hshape : x.root.SameShape root')
    (hspans : root'.leaves.map ParseNode.span = moved 0 0 (x.edits done.registry)) :
    ((∃ tree, parser.tree profile done.code = .ok tree) ↔ ¬ x.Collision done.registry) ∧
    (∀ tree, parser.tree profile done.code = .ok tree →
      tree.nodes.map (fun m => (m.kind, m.type)) = x.node.nodes.map fun m => (m.kind, m.type)) ∧
    ((∀ p ∈ done.registry.pairs, ∀ q ∈ done.registry.pairs, p.2 = q.2 → p.1 = q.1) →
      ∃ tree, parser.tree profile done.code = .ok tree) := by
  obtain ⟨⟨next, hresolve⟩, -, hcode, -⟩ :=
    (x.rename_eq_ok_iff fun p hp => (hwords p hp).1).mp hdone
  have hreread : x.Reread done.registry (encode done.code) root' :=
    ⟨hidentifiers, hdeclarations, x.exists_find?_of_resolve hresolve, fun p hp => (hwords p hp).2,
      x.matched_root hcode hshape hspans⟩
  have hiff : (∃ tree, parser.tree profile done.code = .ok tree) ↔ ¬ x.Collision done.registry :=
    (Parser.exists_tree_iff hparsed).trans hreread.exists_convert_iff
  refine ⟨hiff, fun tree htree => ?_, fun hinjective => hiff.mpr ?_⟩
  · obtain ⟨root, node, hroot, hnode, rfl⟩ := Parser.tree_eq_ok_iff.mp htree
    obtain rfl : root' = root := Except.ok.inj (hparsed.symm.trans hroot)
    rw [Tree.nodes, Node.nodes_eq_preorder, Node.nodes_eq_preorder, eq_comm, map_eq_map_iff]
    exact (Convert.sameSort_preorder x.converted hnode hshape).imp
      fun m n hmn => by rw [hmn.kind, hmn.type]
  · rintro ⟨_, -, -, _, -, _, -, -, s, t, new, -, -, hne, hs, ht⟩
    exact hne (hinjective _ (Registry.mem_of_find? hs) _ (Registry.mem_of_find? ht) rfl)

/-- The tree of a declaration of two names, by their lengths. -/
def twoNames (a b : Nat) : ParseNode :=
  let name (start length : Nat) : ParseNode :=
    .mk "variable_declarator" start (start + length) 0 start true false none
      [.mk "identifier" start (start + length) 0 start true false (some "name") []]
  .mk "program" 0 (a + b + 5) 0 0 true false none
    [.mk "lexical_declaration" 0 (a + b + 5) 0 0 true false none
      [.mk "let" 0 3 0 0 false false none [], name 4 a,
        .mk "," (a + 4) (a + 5) 0 (a + 4) false false none [], name (a + 5) b]]

def twoNamesNode (a b : Nat) (first second : String) : Node :=
  let name (start length : Nat) (name : String) : Node :=
    .mk .inner "variable_declarator" start (start + length) .null ""
      [.mk .identifier "identifier" start (start + length) (.text name) "" []]
  .mk .inner "program" 0 (a + b + 5) .null ""
    [.mk .inner "lexical_declaration" 0 (a + b + 5) .null ""
      [.mk .token "let" 0 3 .null "" [], name 4 a first,
        .mk .token "," (a + 4) (a + 5) .null "" [], name (a + 5) b second]]

def constantSupply : Supply Unit where
  draw _ := (.ok "xy", ())
  strategy := "constant"
  description := "constant"

def twoNamesParser : Parser := fun _ text =>
  .ok (if text = "let a,b" then twoNames 1 1 else twoNames 2 2)

def twoNamesReading : Reading twoNamesParser { name := "module" } where
  text := "let a,b"
  root := twoNames 1 1
  node := twoNamesNode 1 1 "a" "b"
  parsed := rfl
  converted := by rw [Convert.convert_eq_convertRec]; rfl
  inOrder := ⟨by decide, by decide⟩

/-- With one substitute for both names the declaration is not taken again. -/
theorem not_exists_tree_twoNames :
    (Redactor.rename constantSupply twoNamesParser { name := "module" } "let a,b" ()).result =
        .ok ⟨"let xy,xy", 2, ⟨[("a", "xy"), ("b", "xy")]⟩⟩ ∧
      ¬ ∃ tree, twoNamesParser.tree { name := "module" } "let xy,xy" = .ok tree := by
  have hdone : (Redactor.rename constantSupply twoNamesParser { name := "module" } "let a,b"
      ()).result = .ok ⟨"let xy,xy", 2, ⟨[("a", "xy"), ("b", "xy")]⟩⟩ :=
    (twoNamesReading.rename_eq_ok_iff (by decide)).mpr ⟨⟨(), rfl⟩, fun _ _ _ _ => .inr rfl, by decide, rfl⟩
  have hnames : ∀ t ∈ (Task.root (twoNames 1 1)).all, ∀ u ∈ t.all, u.inName = false := by decide
  have h := twoNamesReading.exists_tree_redacted_iff constantSupply () _ (twoNames 2 2) (by decide)
    (fun t ht _ _ _ u hu _ => hnames t ht u hu) hdone (by decide) rfl rfl (by decide)
  have hcollision : twoNamesReading.Collision ⟨[("a", "xy"), ("b", "xy")]⟩ :=
    ⟨twoNames 1 1, List.mem_cons_self, by decide, _, List.mem_cons_self, _,
      List.mem_cons_of_mem _ List.mem_cons_self, .inl rfl, "a", "b", "xy", rfl, rfl, by decide, rfl,
      rfl⟩
  exact ⟨hdone, fun hex => h.1.mp hex hcollision⟩

end Reading

end Pseudonym
