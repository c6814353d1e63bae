import Mathlib.Logic.Function.Iterate
import Pseudonym.Proofs.Tree.FirstFault

namespace Pseudonym

theorem Before.irrefl (path : List Nat) : ¬ Before path path := by
  induction path with
  | nil => exact Before.not_nil []
  | cons i path ih =>
      intro h
      rcases Before.cons_iff.mp h with hlt | ⟨-, hpath⟩
      · exact Nat.lt_irrefl i hlt
      · exact ih hpath

namespace Node

section Addresses

mutual

/-- The addresses of a tree. -/
def addresses : Node → List (List Nat)
  | mk _ _ _ _ _ _ cs => [] :: addressesFrom 0 cs

def addressesFrom (i : Nat) : List Node → List (List Nat)
  | [] => []
  | n :: ns => (addresses n).map (i :: ·) ++ addressesFrom (i + 1) ns

end

theorem addresses_eq (n : Node) : n.addresses = [] :: addressesFrom 0 n.children := by
  cases n; rfl

theorem mem_addressesFrom_iff {ns : List Node} {i : Nat} {path : List Nat} :
    path ∈ addressesFrom i ns ↔
      ∃ k c more, ns[k]? = some c ∧ more ∈ c.addresses ∧ path = (i + k) :: more := by
  induction ns generalizing i with
  | nil => simp [addressesFrom]
  | cons n ns ih =>
      rw [addressesFrom, List.mem_append, List.mem_map, ih]
      constructor
      · rintro (⟨more, hmore, rfl⟩ | ⟨k, c, more, hc, hmore, rfl⟩)
        · exact ⟨0, n, more, rfl, hmore, rfl⟩
        · exact ⟨k + 1, c, more, hc, hmore, by rw [Nat.add_assoc, Nat.add_comm 1 k]⟩
      · rintro ⟨k, c, more, hc, hmore, rfl⟩
        cases k with
        | zero =>
            obtain rfl := Option.some.inj hc
            exact .inl ⟨more, hmore, rfl⟩
        | succ k => exact .inr ⟨k, c, more, hc, hmore, by rw [Nat.add_assoc, Nat.add_comm 1 k]⟩

theorem mem_addresses_iff {n : Node} {path : List Nat} :
    path ∈ n.addresses ↔ ∃ m, n.at? path = some m := by
  induction n using inductionOn generalizing path with
  | h n ih =>
      rw [addresses_eq, List.mem_cons, mem_addressesFrom_iff]
      cases path with
      | nil => exact ⟨fun _ => ⟨n, rfl⟩, fun _ => .inl rfl⟩
      | cons i path =>
          rw [at?]
          constructor
          · rintro (hnil | ⟨k, c, more, hc, hmore, hpath⟩)
            · cases hnil
            · rw [Nat.zero_add] at hpath
              obtain ⟨rfl, rfl⟩ := List.cons.inj hpath
              rw [hc]
              exact (ih c (List.mem_of_getElem? hc)).mp hmore
          · rintro ⟨m, hm⟩
            obtain ⟨c, hc, hm⟩ := Option.bind_eq_some_iff.mp hm
            refine .inr ⟨i, c, path, hc, (ih c (List.mem_of_getElem? hc)).mpr ⟨m, hm⟩, ?_⟩
            rw [Nat.zero_add]

theorem addresses_pairwise :
    (∀ n : Node, n.addresses.Pairwise Before) ∧
      ∀ (ns : List Node) (i : Nat), (addressesFrom i ns).Pairwise Before := by
  apply mutualInduction
  · intro n ih
    rw [addresses_eq, List.pairwise_cons]
    refine ⟨fun path hpath => ?_, ih 0⟩
    obtain ⟨k, c, more, -, -, rfl⟩ := mem_addressesFrom_iff.mp hpath
    exact Before.nil_cons (0 + k) more
  · intro i
    exact List.Pairwise.nil
  · intro n ns hn hns i
    rw [addressesFrom, List.pairwise_append]
    refine ⟨hn.map _ fun path path' h => h.cons i, hns (i + 1), ?_⟩
    -- What is below a later sibling starts with a greater number.
    intro path hpath path' hpath'
    obtain ⟨more, -, rfl⟩ := List.mem_map.mp hpath
    obtain ⟨k, c, more', -, -, rfl⟩ := mem_addressesFrom_iff.mp hpath'
    exact Before.cons_iff.mpr (.inl (by omega))

theorem nodup_addresses (n : Node) : n.addresses.Nodup := by
  refine (addresses_pairwise.1 n).imp fun {path path'} h => ?_
  rintro rfl
  exact Before.irrefl path h

theorem at?_addresses :
    (∀ n : Node, n.addresses.map n.at? = n.preorder.map some) ∧
      ∀ (ns : List Node) (parent : Node) (front : List Node), parent.children = front ++ ns →
        (addressesFrom front.length ns).map parent.at? = (ns.flatMap preorder).map some := by
  apply mutualInduction
  · intro n ih
    rw [addresses_eq, preorder_eq, List.map_cons, List.map_cons, ← ih n [] rfl]
    rfl
  · intro parent front _
    rfl
  · intro n ns hn hns parent front hchildren
    have hhere : ∀ path, parent.at? (front.length :: path) = n.at? path := by
      intro path
      rw [at?, hchildren, List.getElem?_append_right (Nat.le_refl _), Nat.sub_self]
      rfl
    have hrest := hns parent (front ++ [n]) (by rw [hchildren, List.append_assoc]; rfl)
    rw [List.length_append, List.length_singleton] at hrest
    rw [addressesFrom, List.map_append, List.map_map, List.flatMap_cons, List.map_append, hrest, ← hn]
    congr 1
    exact List.map_congr_left fun path _ => hhere path

end Addresses

section Turns

/-- One turn with the stack: the node on top is taken off, and its children are put on. -/
def turn : List Node → List Node
  | [] => []
  | n :: stack => n.children ++ stack

theorem head?_nodesFrom (stack : List Node) : (nodesFrom stack).head? = stack.head? := by
  cases stack with
  | nil => rw [nodesFrom]
  | cons n stack => rw [nodesFrom, List.head?_cons, List.head?_cons]

theorem nodesFrom_turn (stack : List Node) : nodesFrom (turn stack) = (nodesFrom stack).tail := by
  cases stack with
  | nil => rw [turn, nodesFrom, List.tail_nil]
  | cons n stack => rw [turn, nodesFrom.eq_2, List.tail_cons]

theorem nodesFrom_iterate_turn (stack : List Node) (k : Nat) :
    nodesFrom (turn^[k] stack) = (nodesFrom stack).drop k := by
  induction k generalizing stack with
  | zero => rfl
  | succ k ih => rw [Function.iterate_succ_apply, ih, nodesFrom_turn, List.drop_tail]

theorem nodesFrom_eq_nil_iff {stack : List Node} : nodesFrom stack = [] ↔ stack = [] := by
  rw [← List.head?_eq_none_iff, head?_nodesFrom, List.head?_eq_none_iff]

theorem length_preorder :
    (∀ n : Node, n.preorder.length = n.size) ∧
      ∀ ns : List Node, (ns.flatMap preorder).length = sizeAll ns := by
  refine mutualInduction ?_ rfl ?_
  · intro n ih
    rw [preorder_eq, List.length_cons, ih, size_eq]
  · intro n ns hn hns
    rw [List.flatMap_cons, List.length_append, hn, hns, sizeAll]

theorem head?_iterate_turn (n : Node) (k : Nat) : (turn^[k] [n]).head? = n.nodes[k]? := by
  rw [← head?_nodesFrom, nodesFrom_iterate_turn, List.head?_drop, nodes]

/-- The stack is empty after as many turns as there are nodes, and no earlier. -/
theorem iterate_turn_eq_nil_iff {n : Node} {k : Nat} : turn^[k] [n] = [] ↔ n.size ≤ k := by
  rw [← nodesFrom_eq_nil_iff, nodesFrom_iterate_turn, List.drop_eq_nil_iff, ← nodes,
    nodes_eq_preorder, length_preorder.1]

end Turns

section Nesting

/-- The children lie within the span of their parent, one behind the other. -/
structure Encloses (n : Node) : Prop where
  within : ∀ c ∈ n.children, n.start ≤ c.start ∧ c.start ≤ c.stop ∧ c.stop ≤ n.stop
  apart : n.children.Pairwise fun a b => a.stop ≤ b.start

instance (n : Node) : Decidable n.Encloses :=
  decidable_of_iff ((∀ c ∈ n.children, n.start ≤ c.start ∧ c.start ≤ c.stop ∧ c.stop ≤ n.stop) ∧
    n.children.Pairwise fun a b => a.stop ≤ b.start) ⟨fun h => ⟨h.1, h.2⟩, fun h => ⟨h.1, h.2⟩⟩

def Nested (n : Node) : Prop := ∀ m ∈ n.preorder, m.Encloses

instance (n : Node) : Decidable n.Nested := inferInstanceAs (Decidable (∀ m ∈ n.preorder, _))

theorem nested_iff {n : Node} : n.Nested ↔ n.Encloses ∧ ∀ c ∈ n.children, c.Nested := by
  rw [Nested, preorder_eq, List.forall_mem_cons, List.forall_mem_flatMap]
  rfl

theorem leaves_eq (n : Node) :
    n.leaves = if n.isLeaf then [n] else n.children.flatMap leaves := by
  rw [leaves, preorder_eq, List.filter_cons, List.filter_flatMap]
  split
  next hleaf =>
    have hnil : n.children = [] := List.isEmpty_iff.mp hleaf
    rw [hnil]
    rfl
  next => rfl

theorem Nested.within {n : Node} (h : n.Nested) (hn : n.start ≤ n.stop) :
    ∀ m ∈ n.preorder, n.start ≤ m.start ∧ m.start ≤ m.stop ∧ m.stop ≤ n.stop := by
  induction n using inductionOn with
  | h n ih =>
      obtain ⟨hencloses, hchildren⟩ := nested_iff.mp h
      intro m hm
      rw [preorder_eq, List.mem_cons, List.mem_flatMap] at hm
      rcases hm with rfl | ⟨c, hc, hm⟩
      · exact ⟨Nat.le_refl _, hn, Nat.le_refl _⟩
      · obtain ⟨hstart, hspan, hstop⟩ := hencloses.within c hc
        obtain ⟨hstart', hspan', hstop'⟩ := ih c hc (hchildren c hc) hspan m hm
        exact ⟨hstart.trans hstart', hspan', hstop'.trans hstop⟩

/-- Leaves of different children are as far apart as the children are. -/
theorem Nested.pairwise_leaves {n : Node} (h : n.Nested) :
    n.leaves.Pairwise fun a b => a.start ≤ a.stop ∧ a.stop ≤ b.start := by
  induction n using inductionOn with
  | h n ih =>
      obtain ⟨hencloses, hchildren⟩ := nested_iff.mp h
      rw [leaves_eq]
      split
      · exact List.pairwise_singleton _ _
      · rw [List.pairwise_flatMap]
        refine ⟨fun c hc => ih c hc (hchildren c hc), ?_⟩
        have hin : ∀ c ∈ n.children, ∀ m ∈ c.leaves,
            c.start ≤ m.start ∧ m.start ≤ m.stop ∧ m.stop ≤ c.stop := fun c hc m hm =>
          (hchildren c hc).within (hencloses.within c hc).2.1 m (List.mem_of_mem_filter hm)
        refine hencloses.apart.imp_of_mem fun {c d} hc hd hcd a ha b hb => ?_
        obtain ⟨-, hspan, hstop⟩ := hin c hc a ha
        obtain ⟨hstart, -, -⟩ := hin d hd b hb
        exact ⟨hspan, hstop.trans (hcd.trans hstart)⟩

end Nesting

end Node

namespace Tree

/-- The stack lists the nodes by their addresses, in as many turns as there are nodes. Nested spans
come out in order. -/
theorem nodes_in_document_order (t : Tree) :
    t.nodes = t.root.preorder ∧
    (∃ addresses : List (List Nat), addresses.Nodup ∧ addresses.Pairwise Before ∧
      (∀ path, path ∈ addresses ↔ ∃ m, t.root.at? path = some m) ∧
      addresses.map t.root.at? = t.nodes.map some) ∧
    (∀ k, (Node.turn^[k] [t.root]).head? = t.nodes[k]? ∧
      (Node.turn^[k] [t.root] = [] ↔ t.root.size ≤ k)) ∧
    t.nodeCount = t.root.size ∧
    (t.root.Nested →
      (t.nodes.filter Node.isLeaf).Pairwise (fun a b => a.start ≤ a.stop ∧ a.stop ≤ b.start) ∧
      (t.identifiers.filter Node.isLeaf).Pairwise
        fun a b => a.start ≤ a.stop ∧ a.stop ≤ b.start) := by
  have hnodes : t.nodes = t.root.preorder := t.root.nodes_eq_preorder
  refine ⟨hnodes, ⟨t.root.addresses, t.root.nodup_addresses, Node.addresses_pairwise.1 t.root,
    fun _ => Node.mem_addresses_iff, ?_⟩, ?_, ?_, fun hnested => ?_⟩
  · rw [hnodes]
    exact Node.at?_addresses.1 t.root
  · exact fun k => ⟨t.root.head?_iterate_turn k, Node.iterate_turn_eq_nil_iff⟩
  · rw [nodeCount, hnodes, Node.length_preorder.1]
  · have hleaves := hnested.pairwise_leaves
    rw [identifiers, List.filter_comm, hnodes]
    exact ⟨hleaves, hleaves.sublist List.filter_sublist⟩

/-- A leaf of no width between two branches. The second branch has a name of its own. -/
def branched : Tree where
  root := .mk .inner "program" 0 9 .null ""
    [.mk .inner "member_expression" 0 4 .null ""
        [.mk .identifier "identifier" 0 1 (.text "a") "" [], .mk .token "." 1 2 .null "" [],
          .mk .privateProperty "private_property_identifier" 2 4 (.text "b") "#" []],
      .mk .identifier "identifier" 4 4 (.text "e") "" [],
      .mk .identifier "sequence" 5 9 (.text "s") ""
        [.mk .identifier "identifier" 5 6 (.text "a") "" [], .mk .label "label" 8 9 (.text "l") "" []]]
  source := Text.encode "a.#b a  l"

theorem nodes_in_document_order_branched :
    branched.root.Nested ∧ branched.nodeCount = 9 ∧ Node.turn^[8] [branched.root] ≠ [] ∧
      Node.turn^[9] [branched.root] = [] ∧
      (branched.nodes.filter Node.isLeaf).Pairwise
        (fun a b => a.start ≤ a.stop ∧ a.stop ≤ b.start) ∧
      (branched.identifiers.filter Node.isLeaf).Pairwise
        fun a b => a.start ≤ a.stop ∧ a.stop ≤ b.start := by
  obtain ⟨-, -, hturns, hcount, hspans⟩ := nodes_in_document_order branched
  have hnested : branched.root.Nested := by decide
  have hsize : branched.root.size = 9 := by decide
  refine ⟨hnested, hcount.trans hsize, ?_, ?_, hspans hnested⟩
  · rw [Ne, (hturns 8).2, hsize]
    decide
  · rw [(hturns 9).2, hsize]

end Tree

end Pseudonym
