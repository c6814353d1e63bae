import Pseudonym.Proofs.Tree.Declarations
import Pseudonym.Proofs.Tree.Jumps

namespace Pseudonym

open Text (Bytes encode slice)
open Traversal

namespace Rules

/-- A labelled statement with the label that a jump names. -/
def Answers (source : Bytes) (a n : ParseNode) : Prop :=
  a.type = "labeled_statement" ∧ ∃ label ∈ a.children, label.type = "statement_identifier" ∧
    ∃ goal ∈ n.children, goal.type = "statement_identifier" ∧
      slice source label.start label.stop = slice source goal.start goal.stop

instance (source : Bytes) (a n : ParseNode) : Decidable (Answers source a n) :=
  inferInstanceAs (Decidable (_ ∧ ∃ label ∈ a.children, _ ∧ ∃ goal ∈ n.children, _))

theorem exists_labelled {above : List ParseNode} {n : ParseNode} (h : ¬ Misplaced above n)
    (hn : n.type = "break_statement" ∨ n.type = "continue_statement") (hlabel : HasLabel n) :
    ∃ a ∈ inner above, a.type = "labeled_statement" := by
  by_contra hnone
  have hall : ∀ a ∈ inner above, a.type ≠ "labeled_statement" :=
    fun a ha htype => hnone ⟨a, ha, htype⟩
  apply h
  rcases hn with hbreak | hcontinue
  · exact .ofLabelledBreak hbreak hlabel hall
  · exact .ofLabelledContinue hcontinue hlabel (.inl hall)

/-- Sources of one tree that differ in labels alone. -/
structure Relabelled (source source' : Bytes) (root : ParseNode) : Prop where
  other : ∀ n ∈ root.preorder, n.type ≠ "statement_identifier" →
    n.children = [] ∨ isSimpleName n = true →
      slice source' n.start n.stop = slice source n.start n.stop
  label : ∀ n ∈ root.preorder, n.type = "statement_identifier" →
    ∃ text, slice source' n.start n.stop = encode text

namespace Relabelled

variable {source source' : Bytes} {root n : ParseNode}

theorem textOf_eq (h : Relabelled source source' root) (hn : n ∈ root.preorder)
    (htype : n.type ≠ "statement_identifier") (hread : n.children = [] ∨ isSimpleName n = true) :
    textOf source' n = textOf source n := by
  rw [textOf, textOf, h.other n hn htype hread]

theorem checkStrict (h : Relabelled source source' root) (hn : n ∈ root.preorder)
    (hstrict : checkStrict source n = .ok ()) : Rules.checkStrict source' n = .ok () := by
  have htext : n.children.isEmpty = true → n.type ≠ "statement_identifier" →
      textOf source' n = textOf source n :=
    fun hleaf htype => h.textOf_eq hn htype (.inl (List.isEmpty_iff.mp hleaf))
  rw [checkStrict_eq_ok_iff] at hstrict ⊢
  refine ⟨hstrict.1, fun hleaf => ⟨fun hbinding => ?_, fun hnumber => ?_⟩⟩
  · have htype : n.type ≠ "statement_identifier" := by
      intro htype
      rw [htype] at hbinding
      exact absurd hbinding (by decide)
    rw [htext hleaf htype]
    exact (hstrict.2 hleaf).1 hbinding
  · rw [htext hleaf (by rw [hnumber]; decide)]
    exact (hstrict.2 hleaf).2 hnumber

theorem checkDeclarations_iff (h : Relabelled source source' root) (hn : n ∈ root.preorder) :
    checkDeclarations source' n = .ok () ↔ checkDeclarations source n = .ok () := by
  have hnames : declarations source' n = declarations source n := by
    apply List.map_congr_left
    intro d hd
    have hsimple := isSimpleName_of_mem_declaredNames hd
    have hmem := (declaredNames_sublist n).subset (List.mem_map_of_mem hd)
    have htype : d.node.type ≠ "statement_identifier" := by
      intro htype
      rw [isSimpleName, htype] at hsimple
      exact absurd hsimple (by decide)
    rw [h.textOf_eq (ParseNode.mem_preorder_trans hmem hn) htype (.inr hsimple)]
  exact checkDeclarations_congr_perm (hnames ▸ .refl _)

theorem regular {profile : Profile} (h : Relabelled source source' root) (hn : n ∈ root.preorder)
    (hregular : Regular source profile n) : Regular source' profile n :=
  { hregular with
    strict := fun hmodule => h.checkStrict hn (hregular.strict hmodule)
    declarations := fun hblock => (h.checkDeclarations_iff hn).mpr (hregular.declarations hblock) }

theorem legible {above : List ParseNode} (h : Relabelled source source' root)
    (hn : n ∈ root.preorder) (hlegible : Convert.Legible source above n) :
    Convert.Legible source' above n := by
  intro hchain hleaf hkind
  by_cases htype : n.type = "statement_identifier"
  · obtain ⟨text, htext⟩ := h.label n hn htype
    exact ⟨text, Convert.textOf_eq_ok_iff.mpr htext⟩
  · rw [h.textOf_eq hn htype (.inl hleaf)]
    exact hlegible hchain hleaf hkind

/-- What is accepted stays so under other labels. -/
theorem exists_convert {profile : Profile} (h : Relabelled source source' root)
    (hok : ∃ node, Convert.convert source profile root = .ok node) :
    ∃ node, Convert.convert source' profile root = .ok node := by
  rw [Convert.exists_convert_iff_placed] at hok ⊢
  intro path above n htrail
  obtain ⟨u, hu, rfl, -, -⟩ := Convert.Task.exists_of_trail htrail
  have hn : u.node ∈ root.preorder :=
    Convert.Task.node_mem_preorder (Convert.Task.mem_all_iff.mpr ⟨path, hu⟩)
  obtain ⟨hregular, hlegible, hplaced⟩ := hok path above u.node htrail
  exact ⟨h.regular hn hregular, h.legible hn hlegible, hplaced⟩

end Relabelled

end Rules

/-- A labelled jump of an accepted tree has a labelled statement around it. Which labels they have does
not decide what is accepted. -/
theorem Parser.labels_of_tree {parser : Parser} {profile : Profile} {text : String}
    {root : ParseNode} (hroot : parser profile text = .ok root)
    (htree : ∃ tree, parser.tree profile text = .ok tree) :
    (∀ path above n, root.trail? path = some (above ++ [n]) →
      n.type = "break_statement" ∨ n.type = "continue_statement" → Rules.HasLabel n →
        ∃ a ∈ Rules.inner above, a.type = "labeled_statement") ∧
    ∀ text', parser profile text' = .ok root → Rules.Relabelled (encode text) (encode text') root →
      ∃ tree, parser.tree profile text' = .ok tree := by
  have hok := (Parser.exists_tree_iff hroot).mp htree
  constructor
  · intro path above n htrail hn hlabel
    obtain ⟨-, -, hplaced⟩ := Convert.exists_convert_iff_placed.mp hok path above n htrail
    exact Rules.exists_labelled hplaced hn hlabel
  · intro text' hroot' hrelabelled
    exact (Parser.exists_tree_iff hroot').mpr (hrelabelled.exists_convert hok)

/-- A block with a label, and a jump in it. -/
def labelledBlock : ParseNode :=
  let leaf (type : String) (start stop : Nat) : ParseNode :=
    .mk type start stop 0 start true false none []
  let node (type : String) (start stop : Nat) (children : List ParseNode) : ParseNode :=
    .mk type start stop 0 start true false none children
  node "program" 0 15 [node "labeled_statement" 0 15
    [leaf "statement_identifier" 0 1, leaf ":" 1 2,
      node "statement_block" 3 15
        [leaf "\x7b" 3 4,
          node "break_statement" 5 13
            [leaf "break" 5 10, leaf "statement_identifier" 11 12, leaf ";" 12 13],
          leaf "\x7d" 14 15]]]

def labelledTrail : List ParseNode := (labelledBlock.trail? [0, 2, 1]).getD []

theorem labels_labelledBlock :
    (∃ a ∈ Rules.inner labelledTrail.dropLast, a.type = "labeled_statement") ∧
    ∃ tree, Parser.tree (fun _ _ => .ok labelledBlock) { name := "module" }
      "a: \x7b break b; \x7d" = .ok tree := by
  have htree : ∃ tree, Parser.tree (fun _ _ => .ok labelledBlock) { name := "module" }
      "a: \x7b break a; \x7d" = .ok tree := by
    refine (Parser.exists_tree_iff rfl).mpr ?_
    rw [Convert.convert_eq_convertRec]
    exact ⟨_, rfl⟩
  obtain ⟨hjumps, hlabels⟩ := Parser.labels_of_tree rfl htree
  refine ⟨?_, hlabels _ rfl ⟨by decide, ?_⟩⟩
  · exact hjumps [0, 2, 1] labelledTrail.dropLast (labelledTrail.getLast (by decide)) rfl (by decide)
      (by decide)
  · have hspelt : ∀ n ∈ labelledBlock.preorder, n.type = "statement_identifier" →
        slice (encode "a: \x7b break b; \x7d") n.start n.stop = encode "a" ∨
          slice (encode "a: \x7b break b; \x7d") n.start n.stop = encode "b" := by
      decide
    intro n hn htype
    rcases hspelt n hn htype with h | h
    · exact ⟨"a", h⟩
    · exact ⟨"b", h⟩

/-- A jump to a label that does not exist is accepted. -/
theorem labels_astray :
    (∃ tree, Parser.tree (fun _ _ => .ok labelledBlock) { name := "module" }
      "a: \x7b break b; \x7d" = .ok tree) ∧
    ∃ above n, labelledBlock.trail? [0, 2, 1] = some (above ++ [n]) ∧ n.type = "break_statement" ∧
      Rules.HasLabel n ∧
      ¬ ∃ a ∈ Rules.inner above, Rules.Answers (encode "a: \x7b break b; \x7d") a n := by
  refine ⟨(Parser.exists_tree_iff rfl).mpr ?_, labelledTrail.dropLast,
    labelledTrail.getLast (by decide), rfl, rfl, by decide, by decide⟩
  rw [Convert.convert_eq_convertRec]
  exact ⟨_, rfl⟩

end Pseudonym
