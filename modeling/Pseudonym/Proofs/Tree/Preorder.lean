import Pseudonym.Proofs.Text.Splice
import Pseudonym.Proofs.Traversal
import Pseudonym.Source.ParseNode
import Pseudonym.Tree.Node

namespace Pseudonym

namespace Node

@[elab_as_elim]
theorem inductionOn {motive : Node → Prop} (n : Node)
    (h : ∀ n : Node, (∀ c ∈ n.children, motive c) → motive n) : motive n := by
  refine @Node.rec motive (fun cs => ∀ c ∈ cs, motive c) ?_ ?_ ?_ n
  · intro _ _ _ _ _ _ _ ih
    exact h _ ih
  · intro c hc
    cases hc
  · intro d ds hd hds c hc
    rcases List.mem_cons.mp hc with rfl | hc
    · exact hd
    · exact hds c hc

/-- Induction over trees and lists of trees at once. -/
theorem mutualInduction {motive : Node → Prop} {motiveAll : List Node → Prop}
    (mk : ∀ n : Node, motiveAll n.children → motive n) (nil : motiveAll [])
    (cons : ∀ n ns, motive n → motiveAll ns → motiveAll (n :: ns)) :
    (∀ n, motive n) ∧ ∀ ns, motiveAll ns := by
  have hall : ∀ ns : List Node, (∀ n ∈ ns, motive n) → motiveAll ns := by
    intro ns hns
    induction ns with
    | nil => exact nil
    | cons n ns ih =>
        obtain ⟨hn, hns⟩ := List.forall_mem_cons.mp hns
        exact cons n ns hn (ih hns)
  have hnode : ∀ n, motive n := fun n => inductionOn n fun n ih => mk n (hall n.children ih)
  exact ⟨hnode, fun ns => hall ns fun n _ => hnode n⟩

theorem preorderAll_eq (ns : List Node) : preorderAll ns = ns.flatMap preorder := by
  induction ns with
  | nil => rfl
  | cons n ns ih => rw [preorderAll, ih, List.flatMap_cons]

theorem preorder_eq (n : Node) : n.preorder = n :: n.children.flatMap preorder := by
  cases n with
  | mk => rw [preorder, preorderAll_eq]; rfl

theorem nodesFrom_eq (stack : List Node) : nodesFrom stack = stack.flatMap preorder := by
  induction stack using nodesFrom.induct with
  | case1 => rw [nodesFrom, List.flatMap_nil]
  | case2 n stack ih =>
      rw [nodesFrom, ih, List.flatMap_cons, preorder_eq, List.flatMap_append, List.cons_append]

theorem nodes_eq_preorder (n : Node) : n.nodes = n.preorder := by
  rw [nodes, nodesFrom_eq, List.flatMap_singleton]

def span (n : Node) : Span := ⟨n.start, n.stop⟩

def leaves (n : Node) : List Node := n.preorder.filter isLeaf

theorem withChildren_children (n : Node) : n.withChildren n.children = n := by
  cases n; rfl

end Node

namespace ParseNode

@[elab_as_elim]
theorem inductionOn {motive : ParseNode → Prop} (n : ParseNode)
    (h : ∀ n : ParseNode, (∀ c ∈ n.children, motive c) → motive n) : motive n := by
  refine @ParseNode.rec motive (fun cs => ∀ c ∈ cs, motive c) ?_ ?_ ?_ n
  · intro _ _ _ _ _ _ _ _ _ ih
    exact h _ ih
  · intro c hc
    cases hc
  · intro d ds hd hds c hc
    rcases List.mem_cons.mp hc with rfl | hc
    · exact hd
    · exact hds c hc

mutual

/-- A node, then its descendants from left to right. -/
def preorder : ParseNode → List ParseNode
  | mk t s e r c nm ms f cs => mk t s e r c nm ms f cs :: preorderAll cs

def preorderAll : List ParseNode → List ParseNode
  | [] => []
  | n :: ns => preorder n ++ preorderAll ns

end

theorem preorderAll_eq (ns : List ParseNode) : preorderAll ns = ns.flatMap preorder := by
  induction ns with
  | nil => rfl
  | cons n ns ih => rw [preorderAll, ih, List.flatMap_cons]

theorem preorder_eq (n : ParseNode) : n.preorder = n :: n.children.flatMap preorder := by
  cases n with
  | mk => rw [preorder, preorderAll_eq]; rfl

theorem mem_preorder_self (n : ParseNode) : n ∈ n.preorder := by
  rw [preorder_eq]
  exact List.mem_cons_self

theorem mem_preorder_trans {a b c : ParseNode} (hab : a ∈ b.preorder) (hbc : b ∈ c.preorder) :
    a ∈ c.preorder := by
  induction c using inductionOn with
  | h c ih =>
      rw [preorder_eq, List.mem_cons, List.mem_flatMap] at hbc
      rcases hbc with rfl | ⟨d, hd, hb⟩
      · exact hab
      · rw [preorder_eq]
        exact List.mem_cons_of_mem c (List.mem_flatMap.mpr ⟨d, hd, ih d hd hb⟩)

def span (n : ParseNode) : Span := ⟨n.start, n.stop⟩

def leaves (n : ParseNode) : List ParseNode := n.preorder.filter fun m => m.children.isEmpty

mutual

/-- The tree without any places. -/
def outline : ParseNode → ParseNode
  | mk t _ _ _ _ nm ms f cs => mk t 0 0 0 0 nm ms f (outlineAll cs)

def outlineAll : List ParseNode → List ParseNode
  | [] => []
  | n :: ns => outline n :: outlineAll ns

end

/-- The same constructs in the same parts everywhere. Only the places may differ. -/
def SameShape (a b : ParseNode) : Prop := a.outline = b.outline

theorem outlineAll_eq (ns : List ParseNode) : outlineAll ns = ns.map outline := by
  induction ns with
  | nil => rfl
  | cons n ns ih => rw [outlineAll, ih, List.map_cons]

theorem outline_children (n : ParseNode) : n.outline.children = n.children.map outline := by
  cases n with
  | mk => rw [outline, children, outlineAll_eq]; rfl

namespace SameShape

variable {a b : ParseNode}

theorem type (h : SameShape a b) : a.type = b.type := by
  cases a; cases b; exact (ParseNode.mk.inj h).1

theorem isNamed (h : SameShape a b) : a.isNamed = b.isNamed := by
  cases a; cases b; exact (ParseNode.mk.inj h).2.2.2.2.2.1

theorem isMissing (h : SameShape a b) : a.isMissing = b.isMissing := by
  cases a; cases b; exact (ParseNode.mk.inj h).2.2.2.2.2.2.1

theorem field (h : SameShape a b) : a.field = b.field := by
  cases a; cases b; exact (ParseNode.mk.inj h).2.2.2.2.2.2.2.1

theorem children (h : SameShape a b) : List.Forall₂ SameShape a.children b.children := by
  have hc : a.children.map outline = b.children.map outline := by
    rw [← outline_children, ← outline_children, show a.outline = b.outline from h]
  exact Traversal.map_eq_map_iff.mp hc

end SameShape

end ParseNode

end Pseudonym
