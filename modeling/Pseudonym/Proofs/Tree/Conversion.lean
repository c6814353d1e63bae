import Pseudonym.Proofs.Traversal
import Pseudonym.Proofs.Tree.Preorder
import Pseudonym.Tree.Convert

namespace Pseudonym

/-- A node without its children, and how many it has. -/
structure Convert.Shell where
  node : Node
  arity : Nat

/-- Puts nodes together that come with parents first. -/
def Convert.assemble (shells : List Convert.Shell) : List Node :=
  shells.foldr (fun s done => s.node.withChildren (done.take s.arity) :: done.drop s.arity) []

def Node.shell (n : Node) : Convert.Shell := ⟨n.withChildren [], n.children.length⟩

def Node.shells (n : Node) : List Convert.Shell := n.preorder.map Node.shell

namespace Convert

open Text (Bytes)
open Rules (Context)
open Traversal

namespace Task

@[elab_as_elim]
theorem inductionOn {motive : Task → Prop} (t : Task)
    (h : ∀ t : Task, (∀ c ∈ t.children, motive c) → motive t) : motive t := by
  obtain ⟨n, inName, c⟩ := t
  induction n using ParseNode.inductionOn generalizing inName c with
  | h n ih =>
      apply h
      intro u hu
      obtain ⟨child, hchild, rfl⟩ := List.mem_map.mp hu
      exact ih child hchild _ _

end Task

mutual

/-- A node and its descendants as tasks, parents first. -/
def tasks (inName : Bool) (c : Context) : ParseNode → List Task
  | .mk t s e row col nm ms f cs =>
      let n := ParseNode.mk t s e row col nm ms f cs
      ⟨n, inName, c⟩ :: tasksAll n inName (c.inside t) cs

def tasksAll (parent : ParseNode) (inName : Bool) (c : Context) : List ParseNode → List Task
  | [] => []
  | n :: ns => tasks (inTagName inName parent n) c n ++ tasksAll parent inName c ns

end

def Task.all (t : Task) : List Task := tasks t.inName t.context t.node

theorem tasksAll_eq (parent : ParseNode) (inName : Bool) (c : Context) (ns : List ParseNode) :
    tasksAll parent inName c ns =
      (ns.map fun child => ⟨child, inTagName inName parent child, c⟩ : List Task).flatMap
        Task.all := by
  induction ns with
  | nil => rfl
  | cons n ns ih => rw [tasksAll, ih, List.map_cons, List.flatMap_cons, Task.all]

theorem Task.all_eq (t : Task) : t.all = t :: t.children.flatMap Task.all := by
  obtain ⟨n, inName, c⟩ := t
  cases n with
  | mk => rw [Task.all, tasks, tasksAll_eq]; rfl

theorem Task.map_node_children (t : Task) : t.children.map Task.node = t.node.children := by
  simp [Task.children, Function.comp_def]

theorem Task.map_node_all (t : Task) : t.all.map Task.node = t.node.preorder := by
  induction t using Task.inductionOn with
  | h t ih =>
      rw [Task.all_eq, ParseNode.preorder_eq, List.map_cons, List.map_flatMap,
        ← t.map_node_children, List.flatMap_map]
      congr 1
      exact List.flatMap_congr ih

theorem Task.node_mem_preorder {t u : Task} (h : u ∈ t.all) : u.node ∈ t.node.preorder := by
  rw [← t.map_node_all]
  exact List.mem_map_of_mem h

def Task.leaves (t : Task) : List Task := t.all.filter fun u => u.node.children.isEmpty

theorem Task.map_node_leaves (t : Task) : t.leaves.map Task.node = t.node.leaves := by
  rw [ParseNode.leaves, ← t.map_node_all, List.filter_map]
  rfl

/-- What passes from tasks to their children holds all the way down. -/
theorem Task.forall₂_all {R : Task → Task → Prop}
    (hR : ∀ t u, R t u → List.Forall₂ R t.children u.children) {t u : Task} (h : R t u) :
    List.Forall₂ R t.all u.all := by
  induction t using Task.inductionOn generalizing u with
  | h t ih =>
      rw [Task.all_eq, Task.all_eq u]
      refine .cons h ?_
      have hchildren := hR t u h
      generalize t.children = ts, u.children = us at ih hchildren
      induction hchildren with
      | nil => exact .nil
      | cons hab _ ihrest =>
          obtain ⟨ha, hrest⟩ := List.forall_mem_cons.mp ih
          exact List.rel_append (ha hab) (ihrest hrest)

/-- Tasks for nodes of one shape in places of one kind. -/
structure Task.Alike (t u : Task) : Prop where
  shape : t.node.SameShape u.node
  inName_eq : t.inName = u.inName
  context_eq : t.context = u.context

theorem Task.Alike.children {t u : Task} (h : Alike t u) :
    List.Forall₂ Alike t.children u.children := by
  rw [Task.children, Task.children, List.forall₂_map_left_iff, List.forall₂_map_right_iff]
  refine h.shape.children.imp fun a b hab => ⟨hab, ?_, ?_⟩
  · rw [inTagName, inTagName, h.inName_eq, h.shape.type, hab.type]
  · rw [h.context_eq, h.shape.type]

theorem Task.Alike.all {t u : Task} (h : Alike t u) : List.Forall₂ Alike t.all u.all :=
  Task.forall₂_all (fun _ _ hab => hab.children) h

theorem Task.Alike.isEmpty_children {t u : Task} (h : Alike t u) :
    t.node.children.isEmpty = u.node.children.isEmpty := by
  rw [Bool.eq_iff_iff, List.isEmpty_iff_length_eq_zero, List.isEmpty_iff_length_eq_zero,
    h.shape.children.length_eq]

theorem Task.Alike.leaves {t u : Task} (h : Alike t u) : List.Forall₂ Alike t.leaves u.leaves :=
  List.rel_filter (fun _ _ hab => Bool.eq_iff_iff.mp hab.isEmpty_children) h.all

/-- The kind of a node, by its type and its place. -/
def kindOf (inName : Bool) (n : ParseNode) : Kind :=
  if commentTypes.contains n.type then .comment
  else if !n.children.isEmpty then if inName then .tagName else .inner
  else
    match identifierKind? n.type with
    | none => .token
    | some kind => if inName then .tagName else kind

theorem Task.Alike.kindOf_eq {t u : Task} (h : Alike t u) :
    kindOf t.inName t.node = kindOf u.inName u.node := by
  rw [kindOf, kindOf, h.inName_eq, h.shape.type, h.isEmpty_children]

theorem identifierKind?_isRedactable {type : String} {kind : Kind}
    (h : identifierKind? type = some kind) : kind.isRedactable = true := by
  obtain ⟨before, behind, htable, -⟩ := List.lookup_eq_some_iff.mp h
  have hall : ∀ entry ∈ before ++ (type, kind) :: behind, entry.2.isRedactable = true := by
    rw [← htable]
    decide
  exact hall (type, kind) (by simp)

theorem identifierKind?_of_comment {type : String} (h : commentTypes.contains type = true) :
    identifierKind? type = none := by
  have hall : ∀ comment ∈ commentTypes, identifierKind? comment = none := by decide
  exact hall type (List.contains_iff_mem.mp h)

theorem kindOf_of_identifier {n : ParseNode} {kind : Kind} (hleaf : n.children.isEmpty = true)
    (h : identifierKind? n.type = some kind) : kindOf false n = kind := by
  have hcomment : ¬ commentTypes.contains n.type = true := by
    intro hc
    rw [identifierKind?_of_comment hc] at h
    cases h
  rw [kindOf, if_neg hcomment, hleaf, h]
  rfl

/-- Names are replaced in leaves that are identifiers and lie outside the names of tags. -/
theorem isRedactable_kindOf (inName : Bool) (n : ParseNode) :
    (kindOf inName n).isRedactable =
      (n.children.isEmpty && (identifierKind? n.type).isSome && !inName) := by
  unfold kindOf
  split
  next hc =>
    rw [identifierKind?_of_comment hc, Option.isSome_none, Bool.and_false]
    rfl
  next =>
    cases n.children.isEmpty with
    | false => cases inName <;> rfl
    | true =>
        cases hk : identifierKind? n.type with
        | none => rfl
        | some kind =>
            cases inName with
            | true => rfl
            | false => exact identifierKind?_isRedactable hk

variable (source : Bytes) (profile : Profile)

def Task.shell (t : Task) : Except Error Shell :=
  (visit source profile t.inName t.context t.node).map (⟨·, t.node.children.length⟩)

theorem makeNode_eq (inName : Bool) (n : ParseNode) :
    makeNode source inName n =
      if (kindOf inName n).isRedactable then
        (Rules.textOf source n).map (identifierNode (kindOf inName n) n)
      else .ok (.mk (kindOf inName n) n.type n.start n.stop .null "" []) := by
  unfold makeNode kindOf
  split
  · rfl
  · split
    · cases inName <;> rfl
    · cases hk : identifierKind? n.type with
      | none => rfl
      | some kind =>
          cases inName with
          | true => rfl
          | false => simp [identifierKind?_isRedactable hk]

variable {source profile}

theorem makeNode_fields {inName : Bool} {n : ParseNode} {m : Node}
    (h : makeNode source inName n = .ok m) :
    m.kind = kindOf inName n ∧ m.type = n.type ∧ m.span = n.span ∧ m.children = [] := by
  rw [makeNode_eq] at h
  split at h
  next hk =>
    obtain ⟨text, -, rfl⟩ := map_eq_ok_iff.mp h
    exact ⟨rfl, rfl, rfl, rfl⟩
  next hk =>
    obtain rfl := Except.ok.inj h
    exact ⟨rfl, rfl, rfl, rfl⟩

theorem visit_eq_ok_iff {inName : Bool} {c : Context} {n : ParseNode} {m : Node} :
    visit source profile inName c n = .ok m ↔
      Rules.checkNode source profile c n = .ok () ∧ makeNode source inName n = .ok m := by
  rw [visit, bind_eq_ok_iff]
  exact ⟨fun ⟨_, hc, hm⟩ => ⟨hc, hm⟩, fun ⟨hc, hm⟩ => ⟨(), hc, hm⟩⟩

variable (source profile)

def Task.convert (t : Task) : Except Error Node :=
  convertRec source profile t.inName t.context t.node

theorem convertAllRec_eq (parent : ParseNode) (inName : Bool) (c : Context) (ns : List ParseNode) :
    convertAllRec source profile parent inName c ns =
      (ns.map fun child => ⟨child, inTagName inName parent child, c⟩ : List Task).mapM
        (Task.convert source profile) := by
  induction ns with
  | nil => rfl
  | cons n ns ih => rw [convertAllRec, ih, List.map_cons, List.mapM_cons, Task.convert]

theorem Task.convert_eq (t : Task) :
    t.convert source profile = (do
      let shell ← visit source profile t.inName t.context t.node
      let children ← t.children.mapM (Task.convert source profile)
      pure (shell.withChildren children)) := by
  obtain ⟨n, inName, c⟩ := t
  cases n with
  | mk => rw [Task.convert, convertRec, convertAllRec_eq]; rfl

theorem Node.shells_withChildren (n : Node) (ns : List Node) :
    (n.withChildren ns).shells = ⟨n.withChildren [], ns.length⟩ :: ns.flatMap Node.shells := by
  rw [Node.shells, Node.preorder_eq, List.map_cons, List.map_flatMap]
  rfl

/-- Going through the nodes below a task gives the nodes of the converted tree one by one. -/
theorem Task.mapM_all (t : Task) :
    t.all.mapM (Task.shell source profile) = (t.convert source profile).map Node.shells := by
  induction t using Task.inductionOn with
  | h t ih =>
      have hchildren : (t.children.flatMap Task.all).mapM (Task.shell source profile) =
          (t.children.mapM (Task.convert source profile)).map (List.flatMap Node.shells) :=
        mapM_flatMap t.children ih
      rw [Task.all_eq, List.mapM_cons, hchildren, Task.convert_eq, Task.shell]
      cases hv : visit source profile t.inName t.context t.node with
      | error e => rfl
      | ok shell =>
          cases hc : t.children.mapM (Task.convert source profile) with
          | error e => rfl
          | ok nodes =>
              have hshell : shell.withChildren [] = shell := by
                rw [← (makeNode_fields (visit_eq_ok_iff.mp hv).2).2.2.2, shell.withChildren_children]
              have hlen : nodes.length = t.node.children.length := by
                rw [← ((mapM_eq_ok_iff _ _ _).mp hc).length_eq, Task.children, List.length_map]
              change Except.ok _ = Except.ok _
              rw [Node.shells_withChildren, hlen, hshell]

theorem assemble_append (n : Node) (rest : List Shell) :
    assemble (n.shells ++ rest) = n :: assemble rest := by
  induction n using Node.inductionOn generalizing rest with
  | h n ih =>
      have hchildren : ∀ ns : List Node, (∀ c ∈ ns, c ∈ n.children) →
          assemble (ns.flatMap Node.shells ++ rest) = ns ++ assemble rest := by
        intro ns hns
        induction ns with
        | nil => rfl
        | cons c ns ihns =>
            rw [List.flatMap_cons, List.append_assoc, ih c (hns c List.mem_cons_self),
              ihns fun d hd => hns d (List.mem_cons_of_mem c hd), List.cons_append]
      -- The children come off the front of what is put together, and the rest stays.
      have h := hchildren n.children fun c hc => hc
      rw [← n.withChildren_children, Node.shells_withChildren, List.cons_append]
      change Node.withChildren _ ((assemble _).take _) :: (assemble _).drop _ = _
      rw [h, List.take_left, List.drop_left]
      rfl

theorem modify_congr {nodes : List Node} {i : Nat} {f g : Node → Node}
    (h : ∀ m, nodes[i]? = some m → f m = g m) : nodes.modify i f = nodes.modify i g := by
  apply List.ext_getElem?
  intro j
  rw [List.getElem?_modify, List.getElem?_modify]
  by_cases hj : i = j
  · subst hj
    cases hm : nodes[i]? with
    | none => rfl
    | some m => simp [h m hm]
  · simp [hj]

/-- A node may be put under another one before or after that one has come to its own place. -/
theorem appendAt_appendAt (m n : Node) (nodes : List Node) (place : List Nat) :
    appendAt n (appendAt m nodes place) (place ++ [(listAt nodes place).length]) =
      appendAt (m.withChildren (m.children ++ [n])) nodes place := by
  induction place generalizing nodes with
  | nil =>
      have hlast : nodes.length < (nodes ++ [m]).length := by simp
      simp only [listAt, List.nil_append, appendAt, List.modify_eq_take_cons_drop hlast]
      simp
  | cons i path ih =>
      rw [List.cons_append, appendAt, appendAt, appendAt, List.modify_modify_eq]
      apply modify_congr
      intro a ha
      rw [Function.comp_apply, listAt, ha]
      exact congrArg a.withChildren (ih a.children)

theorem foldl_appendAt (m : Node) (ns nodes : List Node) (place : List Nat) :
    ns.foldl (fun made n => appendAt n made (place ++ [(listAt nodes place).length]))
        (appendAt m nodes place) =
      appendAt (m.withChildren (m.children ++ ns)) nodes place := by
  induction ns generalizing m with
  | nil => rw [List.foldl_nil, List.append_nil, m.withChildren_children]
  | cons n ns ih =>
      rw [List.foldl_cons, appendAt_appendAt, ih, List.append_cons m.children n ns]
      rfl

theorem build_tasks {place : List Nat} {tasks : List Task}
    (h : ∀ t ∈ tasks, ∀ stack nodes, build source profile (⟨t, place⟩ :: stack) nodes =
      t.convert source profile >>= fun n => build source profile stack (appendAt n nodes place))
    (stack : List Entry) (nodes : List Node) :
    build source profile (tasks.map (⟨·, place⟩) ++ stack) nodes =
      tasks.mapM (Task.convert source profile) >>= fun ns =>
        build source profile stack (ns.foldl (fun made n => appendAt n made place) nodes) := by
  induction tasks generalizing nodes with
  | nil => rfl
  | cons t tasks ih =>
      obtain ⟨ht, htasks⟩ := List.forall_mem_cons.mp h
      rw [List.map_cons, List.cons_append, ht, List.mapM_cons]
      cases t.convert source profile with
      | error e => rfl
      | ok n =>
          change build source profile _ (appendAt n nodes place) = _
          rw [ih htasks]
          cases tasks.mapM (Task.convert source profile) <;> rfl

/-- A task that comes off the stack leaves the converted tree at the end of its list, whatever else
is on the stack and in the lists. -/
theorem build_cons (t : Task) (place : List Nat) (stack : List Entry) (nodes : List Node) :
    build source profile (⟨t, place⟩ :: stack) nodes =
      t.convert source profile >>= fun n =>
        build source profile stack (appendAt n nodes place) := by
  induction t using Task.inductionOn generalizing place stack nodes with
  | h t ih =>
      rw [build, Task.convert_eq]
      cases hv : visit source profile t.inName t.context t.node with
      | error e => rfl
      | ok shell =>
          have hempty : shell.children = [] := (makeNode_fields (visit_eq_ok_iff.mp hv).2).2.2.2
          have hfill : ∀ ns : List Node, shell.children ++ ns = ns := by simp [hempty]
          change build source profile (push _ t.children stack) (appendAt shell nodes place) = _
          rw [push_eq, build_tasks source profile fun c hc => ih c hc _]
          simp only [foldl_appendAt, hfill]
          cases t.children.mapM (Task.convert source profile) <;> rfl

theorem convert_eq_convertRec (root : ParseNode) :
    convert source profile root = convertRec source profile false {} root := by
  rw [convert, build_cons]
  change _ = Task.convert source profile ⟨root, false, {}⟩
  cases Task.convert source profile ⟨root, false, {}⟩ with
  | error e => rfl
  | ok n =>
      change (build source profile [] [n] >>= fun nodes => pure (nodes.headD default)) = _
      rw [build]
      rfl

variable {source profile}

/-- A node of a converted tree and the task that it comes from. -/
structure Made (source : Bytes) (profile : Profile) (t : Task) (m : Node) : Prop where
  visit_eq : visit source profile t.inName t.context t.node = .ok (m.withChildren [])
  arity_eq : m.children.length = t.node.children.length

namespace Made

variable {t : Task} {m : Node}

theorem makeNode_eq (h : Made source profile t m) :
    makeNode source t.inName t.node = .ok (m.withChildren []) := (visit_eq_ok_iff.mp h.visit_eq).2

theorem kind_eq (h : Made source profile t m) : m.kind = kindOf t.inName t.node :=
  (makeNode_fields h.makeNode_eq).1

theorem type_eq (h : Made source profile t m) : m.type = t.node.type :=
  (makeNode_fields h.makeNode_eq).2.1

theorem span_eq (h : Made source profile t m) : m.span = t.node.span :=
  (makeNode_fields h.makeNode_eq).2.2.1

theorem isLeaf_eq (h : Made source profile t m) : m.isLeaf = t.node.children.isEmpty := by
  rw [Bool.eq_iff_iff, Node.isLeaf, List.isEmpty_iff_length_eq_zero,
    List.isEmpty_iff_length_eq_zero, h.arity_eq]

theorem isRedactable_eq (h : Made source profile t m) :
    m.isRedactable = (m.isLeaf && (identifierKind? t.node.type).isSome && !t.inName) := by
  rw [Node.isRedactable, h.kind_eq, isRedactable_kindOf, h.isLeaf_eq]

end Made

def Task.root (root : ParseNode) : Task := ⟨root, false, {}⟩

theorem Task.alike_root {root root' : ParseNode} (h : root.SameShape root') :
    Alike (Task.root root) (Task.root root') := ⟨h, rfl, rfl⟩

theorem shells_injective {m n : Node} (h : m.shells = n.shells) : m = n := by
  have hm := assemble_append m []
  rw [h, assemble_append n []] at hm
  exact (List.cons.inj hm).1.symm

theorem convert_eq_ok_iff_shells {root : ParseNode} {node : Node} :
    convert source profile root = .ok node ↔
      (Task.root root).all.mapM (Task.shell source profile) = .ok node.shells := by
  rw [convert_eq_convertRec, Task.mapM_all, map_eq_ok_iff]
  change Task.convert source profile (Task.root root) = _ ↔ _
  constructor
  · intro h
    exact ⟨node, h, rfl⟩
  · rintro ⟨n, hn, hshells⟩
    rw [hn, shells_injective hshells]

/-- The nodes of a converted tree come from the tasks of the tree, one by one. -/
theorem forall₂_made {root : ParseNode} {node : Node}
    (h : convert source profile root = .ok node) :
    List.Forall₂ (Made source profile) (Task.root root).all node.preorder := by
  have hshells := (mapM_eq_ok_iff _ _ _).mp (convert_eq_ok_iff_shells.mp h)
  rw [Node.shells, List.forall₂_map_right_iff] at hshells
  refine hshells.imp fun t m htm => ?_
  obtain ⟨shell, hv, hs⟩ := map_eq_ok_iff.mp htm
  obtain ⟨rfl, harity⟩ := Shell.mk.inj hs
  exact ⟨hv, harity.symm⟩

theorem forall₂_made_leaves {root : ParseNode} {node : Node}
    (h : convert source profile root = .ok node) :
    List.Forall₂ (Made source profile) (Task.root root).leaves node.leaves :=
  List.rel_filter (fun _ _ hm => Bool.eq_iff_iff.mp hm.isLeaf_eq.symm) (forall₂_made h)

structure SameSort (m n : Node) : Prop where
  kind : m.kind = n.kind
  type : m.type = n.type

theorem Made.sameSort {source' : Bytes} {t u : Task} {m n : Node} (hm : Made source profile t m)
    (hn : Made source' profile u n) (h : t.Alike u) : SameSort m n :=
  ⟨by rw [hm.kind_eq, hn.kind_eq, h.kindOf_eq], by rw [hm.type_eq, hn.type_eq, h.shape.type]⟩

/-- Trees of one shape are converted to trees with the same kinds and types everywhere. -/
theorem sameSort_preorder {source' : Bytes} {root root' : ParseNode} {node node' : Node}
    (h : convert source profile root = .ok node) (h' : convert source' profile root' = .ok node')
    (hshape : root.SameShape root') :
    List.Forall₂ SameSort node.preorder node'.preorder :=
  forall₂_transfer (fun _ _ _ _ hm hn => hm.sameSort hn) (forall₂_made h) (forall₂_made h')
    (Task.alike_root hshape).all

theorem sameSort_leaves {source' : Bytes} {root root' : ParseNode} {node node' : Node}
    (h : convert source profile root = .ok node) (h' : convert source' profile root' = .ok node')
    (hshape : root.SameShape root') :
    List.Forall₂ SameSort node.leaves node'.leaves :=
  forall₂_transfer (fun _ _ _ _ hm hn => hm.sameSort hn) (forall₂_made_leaves h)
    (forall₂_made_leaves h') (Task.alike_root hshape).leaves

theorem map_span_leaves {root : ParseNode} {node : Node}
    (h : convert source profile root = .ok node) :
    node.leaves.map Node.span = root.leaves.map ParseNode.span := by
  have hleaves : root.leaves = (Task.root root).leaves.map Task.node :=
    (Task.map_node_leaves (Task.root root)).symm
  rw [hleaves, List.map_map, eq_comm, map_eq_map_iff]
  exact (forall₂_made_leaves h).imp fun t m hm => hm.span_eq.symm

theorem Task.exists_convert_iff {t : Task} :
    (∃ node, t.convert source profile = .ok node) ↔
      ∀ u ∈ t.all, ∃ m, visit source profile u.inName u.context u.node = .ok m := by
  have hshell : ∀ u : Task, (∃ s, u.shell source profile = .ok s) ↔
      ∃ m, visit source profile u.inName u.context u.node = .ok m := by
    intro u
    simp only [Task.shell, map_eq_ok_iff]
    exact ⟨fun ⟨_, m, hm, _⟩ => ⟨m, hm⟩, fun ⟨m, hm⟩ => ⟨_, m, hm, rfl⟩⟩
  simp only [← hshell]
  rw [← exists_mapM_iff, Task.mapM_all]
  simp only [map_eq_ok_iff]
  exact ⟨fun ⟨node, h⟩ => ⟨_, node, h, rfl⟩, fun ⟨_, node, h, _⟩ => ⟨node, h⟩⟩

theorem exists_convert_iff {root : ParseNode} :
    (∃ node, convert source profile root = .ok node) ↔
      ∀ t ∈ (Task.root root).all, ∃ m, visit source profile t.inName t.context t.node = .ok m := by
  rw [← Task.exists_convert_iff]
  simp only [convert_eq_convertRec]
  rfl

end Convert

end Pseudonym
