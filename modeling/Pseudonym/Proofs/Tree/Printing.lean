import Pseudonym.Proofs.Registry
import Pseudonym.Proofs.Tree.Conversion
import Pseudonym.Redactor

namespace Pseudonym

open Text
open Traversal

namespace Node

/-- The name that a walk replaces. -/
def usedName? (n : Node) : Option String :=
  if n.isRedactable then Registry.usable? n.name else none

/-- How a leaf is written under another name, or under none. -/
def writtenAs (source : Bytes) (n : Node) : Option String → Bytes
  | some name => encode (n.sigil ++ name)
  | none => slice source n.start n.stop

theorem usedName?_of_not_isRedactable {n : Node} (h : n.isRedactable = false) :
    n.usedName? = none := by
  rw [usedName?, h]
  rfl

theorem isRedactable_of_usedName? {n : Node} {name : String} (h : n.usedName? = some name) :
    n.isRedactable = true := by
  by_contra hn
  rw [usedName?_of_not_isRedactable (Bool.eq_false_iff.mpr hn)] at h
  cases h

theorem isNamed_eq (n : Node) (h : n.isRedactable = true → n.name = .null ∨ ∃ x, n.name = .text x) :
    n.isNamed = n.usedName?.isSome := by
  unfold isNamed usedName?
  cases hn : n.isRedactable with
  | false => rfl
  | true =>
      rcases h hn with h | ⟨x, h⟩
      · rw [h]
        rfl
      · rw [h]
        by_cases hx : x.isEmpty <;> simp [Value.truthy, Registry.usable?, hx]

theorem name_of_usedName? {n : Node} {name : String} (h : n.usedName? = some name) :
    n.name = .text name := by
  rw [usedName?, if_pos (isRedactable_of_usedName? h)] at h
  exact (Registry.usable?_eq_some_iff.mp h).1

theorem written_eq (source : Bytes) (n : Node)
    (h : n.isRedactable = true → n.name = .null ∨ ∃ x, n.name = .text x) :
    n.written source = n.writtenAs source n.usedName? := by
  rw [written, n.isNamed_eq h]
  cases hu : n.usedName? with
  | none => rfl
  | some name =>
      rw [name_of_usedName? hu]
      rfl

/-- A node stands in the way of the printer by a name of its own that cannot be written. -/
theorem fault?_eq (writable : String → Bool) (n : Node)
    (h : n.isRedactable = true → n.name = .null ∨ ∃ x, n.name = .text x) :
    n.fault? writable =
      n.usedName?.bind fun name => if writable name then none else some (.unwritable name) := by
  rw [fault?, n.isNamed_eq h]
  cases hu : n.usedName? with
  | none => rfl
  | some name =>
      rw [name_of_usedName? hu]
      rfl

theorem fault?_eq_none (n : Node)
    (h : n.isRedactable = true → n.name = .null ∨ ∃ x, n.name = .text x) :
    n.fault? (fun _ => true) = none := by
  rw [fault?_eq _ n h]
  cases n.usedName? <;> rfl

end Node

namespace Convert

/-- The sigil of an identifier and its name. -/
def splitSigil (kind : Kind) (text : String) : String × String :=
  match kind, text.toList with
  | .privateProperty, '#' :: rest => ("#", String.ofList rest)
  | _, _ => ("", text)

theorem splitSigil_append (kind : Kind) (text : String) :
    (splitSigil kind text).1 ++ (splitSigil kind text).2 = text := by
  unfold splitSigil
  split
  next rest htext =>
    rw [← String.toList_inj, String.toList_append, htext]
    simp
  next => exact String.empty_append

theorem splitSigil_of_ne {kind : Kind} (h : kind ≠ .privateProperty) (text : String) :
    splitSigil kind text = ("", text) := by
  unfold splitSigil
  split
  · exact absurd rfl h
  · rfl

theorem splitSigil_fst (kind : Kind) (text : String) :
    (splitSigil kind text).1 =
      if kind = .privateProperty ∧ text.toList.head? = some '#' then "#" else "" := by
  unfold splitSigil
  split
  next rest htext => simp [htext]
  next kind hother =>
    refine (if_neg ?_).symm
    rintro ⟨rfl, hhead⟩
    obtain ⟨rest, hrest⟩ := List.head?_eq_some_iff.mp hhead
    exact hother rest rfl hrest

theorem identifierNode_eq (kind : Kind) (n : ParseNode) (text : String) :
    identifierNode kind n text =
      .mk kind n.type n.start n.stop
        (if (splitSigil kind text).2.isEmpty then .null else .text (splitSigil kind text).2)
        (splitSigil kind text).1 [] := rfl

theorem textOf_eq_ok_iff {source : Bytes} {n : ParseNode} {text : String} :
    Rules.textOf source n = .ok text ↔ slice source n.start n.stop = encode text := by
  rw [Rules.textOf, mapError_eq_ok_iff, decode_eq_ok_iff]

namespace Made

variable {source : Bytes} {profile : Profile} {t : Task} {m : Node}

theorem identifier (h : Made source profile t m) (hr : m.isRedactable = true) :
    ∃ text, Rules.textOf source t.node = .ok text ∧ m.sigil = (splitSigil m.kind text).1 ∧
      m.name = if (splitSigil m.kind text).2.isEmpty then .null
        else .text (splitSigil m.kind text).2 := by
  have hm := h.makeNode_eq
  rw [Convert.makeNode_eq, ← h.kind_eq, if_pos (show m.kind.isRedactable = true from hr)] at hm
  obtain ⟨text, htext, hnode⟩ := map_eq_ok_iff.mp hm
  rw [identifierNode_eq] at hnode
  have hmk := Node.mk.inj hnode
  exact ⟨text, htext, hmk.2.2.2.2.2.1.symm, hmk.2.2.2.2.1.symm⟩

theorem name_of_not_redactable (h : Made source profile t m) (hr : m.isRedactable = false) :
    m.name = .null := by
  have hm := h.makeNode_eq
  rw [Convert.makeNode_eq, ← h.kind_eq, show m.kind.isRedactable = false from hr] at hm
  exact (Node.mk.inj (Except.ok.inj hm)).2.2.2.2.1.symm

theorem name_cases (h : Made source profile t m) : m.name = .null ∨ ∃ x, m.name = .text x := by
  cases hr : m.isRedactable with
  | false => exact .inl (h.name_of_not_redactable hr)
  | true =>
      obtain ⟨text, -, -, hname⟩ := h.identifier hr
      rw [hname]
      split
      · exact .inl rfl
      · exact .inr ⟨_, rfl⟩

/-- A name that can be replaced is the text of its node, up to the sigil. -/
theorem textOf_eq (h : Made source profile t m) {name : String} (hname : m.usedName? = some name) :
    Rules.textOf source t.node = .ok (m.sigil ++ name) := by
  have hr := Node.isRedactable_of_usedName? hname
  obtain ⟨text, htext, hsigil, hvalue⟩ := h.identifier hr
  rw [Node.usedName?, if_pos hr, hvalue] at hname
  split at hname
  · cases hname
  next hne =>
    rw [Registry.usable?, if_neg hne] at hname
    rw [htext, hsigil, ← Option.some.inj hname, splitSigil_append]

theorem slice_eq (h : Made source profile t m) :
    slice source m.start m.stop = slice source t.node.start t.node.stop :=
  congrArg (fun s : Span => slice source s.start s.stop) h.span_eq

theorem written_eq (h : Made source profile t m) :
    m.written source = slice source m.start m.stop := by
  rw [Node.written_eq source m fun _ => h.name_cases]
  cases hu : m.usedName? with
  | none => rfl
  | some name =>
      rw [h.slice_eq, textOf_eq_ok_iff.mp (h.textOf_eq hu)]
      rfl

theorem fault?_eq (writable : String → Bool) (h : Made source profile t m) :
    m.fault? writable =
      m.usedName?.bind fun name => if writable name then none else some (.unwritable name) :=
  Node.fault?_eq writable m fun _ => h.name_cases

end Made

end Convert

namespace Tree

theorem weave_leaves (source : Bytes) (cursor : Nat) (ns : List Node) :
    weave source cursor ns = weave source cursor (ns.filter Node.isLeaf) := by
  induction ns generalizing cursor with
  | nil => rfl
  | cons n ns ih =>
      cases hn : n.isLeaf with
      | false =>
          rw [List.filter_cons_of_neg (by simp [hn]), weave, hn, ih]
          rfl
      | true =>
          rw [List.filter_cons_of_pos hn, weave, weave, ih, ih]

/-- Leaves that are written as they stand give the source again, wherever they lie. -/
theorem weave_unchanged (source : Bytes) (ns : List Node)
    (h : ∀ n ∈ ns, n.isLeaf → n.start ≤ n.stop ∧ n.written source = slice source n.start n.stop)
    (cursor : Nat) : weave source cursor ns = source.drop cursor := by
  -- What has been written so far is the source up to the cursor.
  induction ns generalizing cursor with
  | nil => rfl
  | cons n ns ih =>
      have hrest := ih fun m hm => h m (List.mem_cons_of_mem n hm)
      rw [weave]
      split
      next => exact hrest cursor
      next hn =>
        simp only [Bool.or_eq_true, Bool.not_eq_eq_eq_not, Bool.not_true, decide_eq_true_eq, not_or,
          Bool.not_eq_false, Nat.not_lt] at hn
        obtain ⟨hspan, hwritten⟩ := h n List.mem_cons_self hn.1
        rw [hwritten, hrest, slice_append_slice source hn.2 hspan,
          slice_append_drop source (Nat.le_trans hn.2 hspan)]

theorem weave_eq_splice (source : Bytes) {length : Nat} (ns : List Node)
    (hleaf : ∀ n ∈ ns, n.isLeaf = true) (horder : Span.InOrder length (ns.map Node.span))
    (cursor : Nat) (hcursor : ∀ n ∈ ns, cursor ≤ n.start) :
    weave source cursor ns = splice source cursor (ns.map fun n => (n.span, n.written source)) := by
  induction ns generalizing cursor with
  | nil => rfl
  | cons n ns ih =>
      have hrest := ih (fun m hm => hleaf m (List.mem_cons_of_mem n hm)) horder.tail n.stop
        fun m hm => horder.le_start m.span (List.mem_map_of_mem hm)
      have hskip : (!n.isLeaf || decide (n.start < cursor)) = false := by
        simp [hleaf n List.mem_cons_self, hcursor n List.mem_cons_self]
      rw [weave, hskip, hrest]
      rfl

theorem fault?_leaves (writable : String → Bool) (cursor : Nat) (ns : List Node) :
    fault? writable cursor ns = fault? writable cursor (ns.filter Node.isLeaf) := by
  induction ns generalizing cursor with
  | nil => rfl
  | cons n ns ih =>
      cases hn : n.isLeaf with
      | false =>
          rw [List.filter_cons_of_neg (by simp [hn]), fault?, hn, ih]
          rfl
      | true =>
          rw [List.filter_cons_of_pos hn, fault?, fault?, ih, ih]

theorem fault?_eq_none {writable : String → Bool} (ns : List Node)
    (h : ∀ n ∈ ns, n.isLeaf → n.fault? writable = none) (cursor : Nat) :
    fault? writable cursor ns = none := by
  induction ns generalizing cursor with
  | nil => rfl
  | cons n ns ih =>
      have hrest := ih fun m hm => h m (List.mem_cons_of_mem n hm)
      rw [fault?]
      split
      next => exact hrest cursor
      next hn =>
        simp only [Bool.or_eq_true, Bool.not_eq_eq_eq_not, Bool.not_true, decide_eq_true_eq, not_or,
          Bool.not_eq_false] at hn
        rw [h n List.mem_cons_self hn.1, Option.none_or, hrest]

/-- No leaf in order is passed over, so that the first that cannot be written is found. -/
theorem fault?_eq_findSome? (writable : String → Bool) {length : Nat} (ns : List Node)
    (hleaf : ∀ n ∈ ns, n.isLeaf = true) (horder : Span.InOrder length (ns.map Node.span))
    (cursor : Nat) (hcursor : ∀ n ∈ ns, cursor ≤ n.start) :
    fault? writable cursor ns = ns.findSome? (Node.fault? writable) := by
  induction ns generalizing cursor with
  | nil => rfl
  | cons n ns ih =>
      have hrest := ih (fun m hm => hleaf m (List.mem_cons_of_mem n hm)) horder.tail n.stop
        fun m hm => horder.le_start m.span (List.mem_map_of_mem hm)
      have hskip : (!n.isLeaf || decide (n.start < cursor)) = false := by
        simp [hleaf n List.mem_cons_self, hcursor n List.mem_cons_self]
      rw [fault?, hskip, hrest, List.findSome?_cons]
      cases n.fault? writable <;> rfl

theorem print_eq_leaves (t : Tree) (writable : String → Bool) :
    t.print writable = match fault? writable 0 t.root.leaves with
      | some e => .error e
      | none => (decode (weave t.source 0 t.root.leaves)).mapError .decode := by
  rw [print, nodes, Node.nodes_eq_preorder, weave_leaves, fault?_leaves]
  rfl

/-- A tree with its leaves in order is printed by putting each leaf in its place, if all of them can
be written. -/
theorem print_eq_splice (t : Tree) (writable : String → Bool) {length : Nat}
    (horder : Span.InOrder length (t.root.leaves.map Node.span)) :
    t.print writable = match t.root.leaves.findSome? (Node.fault? writable) with
      | some e => .error e
      | none => (decode (splice t.source 0
          (t.root.leaves.map fun m => (m.span, m.written t.source)))).mapError .decode := by
  have hleaf : ∀ m ∈ t.root.leaves, m.isLeaf = true := fun m hm => (List.mem_filter.mp hm).2
  have hweave := weave_eq_splice t.source t.root.leaves hleaf horder 0 fun m _ => Nat.zero_le m.start
  have hfault := fault?_eq_findSome? writable t.root.leaves hleaf horder 0
    fun m _ => Nat.zero_le m.start
  rw [print_eq_leaves, hweave, hfault]

theorem print_eq_ok_iff {t : Tree} {writable : String → Bool} {text : String} :
    t.print writable = .ok text ↔ fault? writable 0 t.root.preorder = none ∧
      weave t.source 0 t.root.preorder = encode text := by
  rw [print, nodes, Node.nodes_eq_preorder]
  split
  next e he => simp [he]
  next hnone => rw [mapError_eq_ok_iff, decode_eq_ok_iff, hnone, eq_self, true_and]

end Tree

theorem Parser.tree_eq_ok_iff {parser : Parser} {profile : Profile} {text : String} {tree : Tree} :
    parser.tree profile text = .ok tree ↔ ∃ root node, parser profile text = .ok root ∧
      Convert.convert (encode text) profile root = .ok node ∧ tree = ⟨node, encode text⟩ := by
  simp only [Parser.tree, bind_eq_ok_iff, mapError_eq_ok_iff]
  constructor
  · rintro ⟨root, hroot, node, hnode, h⟩
    exact ⟨root, node, hroot, hnode, (Except.ok.inj h).symm⟩
  · rintro ⟨root, node, hroot, hnode, rfl⟩
    exact ⟨root, hroot, node, hnode, rfl⟩

theorem Parser.exists_tree_iff {parser : Parser} {profile : Profile} {text : String}
    {root : ParseNode} (h : parser profile text = .ok root) :
    (∃ tree, parser.tree profile text = .ok tree) ↔
      ∃ node, Convert.convert (encode text) profile root = .ok node := by
  constructor
  · rintro ⟨tree, htree⟩
    obtain ⟨root', node, hroot, hnode, -⟩ := Parser.tree_eq_ok_iff.mp htree
    obtain rfl : root = root' := Except.ok.inj (h.symm.trans hroot)
    exact ⟨node, hnode⟩
  · rintro ⟨node, hnode⟩
    exact ⟨_, Parser.tree_eq_ok_iff.mpr ⟨root, node, h, hnode, rfl⟩⟩

/-- A tree prints as the text that it was read from, wherever its leaves lie. -/
theorem Parser.print_tree (parser : Parser) (profile : Profile) (text : String) (root : ParseNode)
    (tree : Tree) (hroot : parser profile text = .ok root)
    (hspans : ∀ n ∈ root.leaves, n.start ≤ n.stop)
    (htree : parser.tree profile text = .ok tree) : tree.print = .ok text := by
  obtain ⟨root', node, hroot', hnode, rfl⟩ := Parser.tree_eq_ok_iff.mp htree
  obtain rfl : root = root' := Except.ok.inj (hroot.symm.trans hroot')
  have hmade : ∀ m ∈ node.preorder, ∃ t, Convert.Made (encode text) profile t m := by
    intro m hm
    obtain ⟨t, -, h⟩ := forall₂_exists_left (Convert.forall₂_made hnode) hm
    exact ⟨t, h⟩
  rw [Tree.print_eq_ok_iff]
  refine ⟨Tree.fault?_eq_none _ (fun m hm _ => ?_) 0,
    Tree.weave_unchanged _ _ (fun m hm hleaf => ?_) 0⟩
  · obtain ⟨t, ht⟩ := hmade m hm
    exact m.fault?_eq_none fun _ => ht.name_cases
  obtain ⟨t, ht⟩ := hmade m hm
  have hspan : m.span ∈ root.leaves.map ParseNode.span := by
    rw [← Convert.map_span_leaves hnode]
    exact List.mem_map_of_mem (List.mem_filter.mpr ⟨hm, hleaf⟩)
  obtain ⟨n, hn, hnm⟩ := List.mem_map.mp hspan
  obtain ⟨hstart, hstop⟩ := Span.mk.inj hnm
  exact ⟨hstart ▸ hstop ▸ hspans n hn, ht.written_eq⟩

/-- A tree with leaves out of order, past the end, and of no width. -/
def tangled : ParseNode :=
  .mk "program" 0 5 0 0 true false none
    [.mk "private_property_identifier" 2 9 0 2 true false none [],
      .mk "identifier" 0 1 0 0 true false none [], .mk "comment" 4 4 0 4 true false none []]

theorem print_tree_tangled :
    ∃ tree, Parser.tree (fun _ _ => .ok tangled) { name := "module" } "x.#é" = .ok tree ∧
      tree.print = .ok "x.#é" := by
  have htree : Parser.tree (fun _ _ => .ok tangled) { name := "module" } "x.#é" = .ok
      ⟨.mk .inner "program" 0 5 .null ""
        [.mk .privateProperty "private_property_identifier" 2 9 (.text "é") "#" [],
          .mk .identifier "identifier" 0 1 (.text "x") "" [],
          .mk .comment "comment" 4 4 .null "" []], encode "x.#é"⟩ := by
    refine Parser.tree_eq_ok_iff.mpr ⟨_, _, rfl, ?_, rfl⟩
    rw [Convert.convert_eq_convertRec]
    rfl
  exact ⟨_, htree, Parser.print_tree _ _ _ tangled _ rfl (by decide) htree⟩

end Pseudonym
