import Pseudonym.Proofs.Tree.Declarations
import Pseudonym.Proofs.Tree.Jumps

namespace Pseudonym

open Text Traversal

/-- Document order of addresses: a node comes before what is below it, and what is below a child
before what is below a later child. -/
inductive Before : List Nat → List Nat → Prop
  | below (path : List Nat) (i : Nat) (more : List Nat) : Before path (path ++ i :: more)
  | beside (path : List Nat) {i j : Nat} (h : i < j) (more others : List Nat) :
      Before (path ++ i :: more) (path ++ j :: others)

namespace Before

theorem not_nil (path : List Nat) : ¬ Before path [] := by
  intro h
  generalize hnil : [] = last at h
  cases h <;> simp at hnil

theorem nil_cons (i : Nat) (path : List Nat) : Before [] (i :: path) := .below [] i path

theorem cons {path path' : List Nat} (h : Before path path') (i : Nat) :
    Before (i :: path) (i :: path') := by
  cases h with
  | below _ j more => exact .below (i :: path) j more
  | beside path h more others => exact .beside (i :: path) h more others

theorem cons_iff {i j : Nat} {path path' : List Nat} :
    Before (i :: path) (j :: path') ↔ i < j ∨ i = j ∧ Before path path' := by
  constructor
  · intro h
    generalize hleft : i :: path = left, hright : j :: path' = right at h
    cases h with
    | below start k more =>
        subst hleft
        obtain ⟨rfl, rfl⟩ := List.cons.inj hright
        exact .inr ⟨rfl, .below path k more⟩
    | beside start h more others =>
        cases start with
        | nil =>
            obtain ⟨rfl, rfl⟩ := List.cons.inj hleft
            obtain ⟨rfl, rfl⟩ := List.cons.inj hright
            exact .inl h
        | cons k start =>
            obtain ⟨rfl, rfl⟩ := List.cons.inj hleft
            obtain ⟨rfl, rfl⟩ := List.cons.inj hright
            exact .inr ⟨rfl, .beside start h more others⟩
  · rintro (h | ⟨rfl, h⟩)
    · exact .beside [] h path path'
    · exact h.cons i

end Before

namespace Rules

variable {α β : Type} {source : Bytes} {nodes : List ParseNode}

/-- A rejection with the place of a node. -/
def Rejects (n : ParseNode) (e : Error) : Prop :=
  ∃ v, e = .request (.parse ⟨v, some (n.row + 1), some n.column⟩)

/-- What goes wrong is a rejection of one of some nodes, or one of them cannot be read. -/
def Blames (source : Bytes) (nodes : List ParseNode) (x : Except Error α) : Prop :=
  ∀ e, x = .error e → ∃ n ∈ nodes, Rejects n e ∨ textOf source n = .error e

namespace Blames

theorem ok (a : α) : Blames source nodes (.ok a) := by
  intro e h
  cases h

theorem bind {x : Except Error α} {f : α → Except Error β} (hx : Blames source nodes x)
    (hf : ∀ a, Blames source nodes (f a)) : Blames source nodes (x >>= f) := by
  intro e h
  rcases bind_eq_error_iff.mp h with h | ⟨a, -, h⟩
  · exact hx e h
  · exact hf a e h

theorem ite {p : Prop} [Decidable p] {x y : Except Error α} (hx : Blames source nodes x)
    (hy : Blames source nodes y) : Blames source nodes (if p then x else y) := by
  split
  · exact hx
  · exact hy

theorem textOf {n : ParseNode} (hn : n ∈ nodes) : Blames source nodes (textOf source n) :=
  fun _ h => ⟨n, hn, .inr h⟩

theorem require {n : ParseNode} (hn : n ∈ nodes) (ok : Bool) (v : Violation) :
    Blames source nodes (require n ok v) := by
  intro e h
  cases ok with
  | false => exact ⟨n, hn, .inl ⟨v, (Except.error.inj h).symm⟩⟩
  | true => cases h

theorem checkStrict {n : ParseNode} (hn : n ∈ nodes) :
    Blames source nodes (checkStrict source n) := by
  have hnumber : Blames source nodes (if n.type = "number" then do
      let text ← Rules.textOf source n
      Rules.require n (!isLegacyOctal text) .legacyOctal
    else pure ()) :=
    .ite (.bind (.textOf hn) fun _ => .require hn _ _) (.ok ())
  apply Blames.bind (.require hn _ _)
  intro _
  apply Blames.ite _ (.ok ())
  apply Blames.ite _ hnumber
  apply Blames.bind (.textOf hn)
  intro text
  exact .bind (.require hn _ _) fun _ => hnumber

theorem checkJump {n : ParseNode} (hn : n ∈ nodes) (c : Context) :
    Blames source nodes (checkJump c n) :=
  .bind (.require hn _ _) fun _ => .require hn _ _

theorem checkNames {ds : List Declared} (h : ∀ d ∈ ds, d.node ∈ nodes)
    (lexical hoisted : List String) : Blames source nodes (checkNames source lexical hoisted ds) := by
  induction ds generalizing lexical hoisted with
  | nil => exact .ok ()
  | cons d ds ih =>
      obtain ⟨hd, hds⟩ := List.forall_mem_cons.mp h
      apply Blames.bind (.textOf hd)
      intro name
      apply Blames.bind (.require hd _ _)
      intro _
      exact .ite (ih hds (name :: lexical) hoisted) (ih hds lexical (name :: hoisted))

theorem checkDeclarations (block : ParseNode) :
    Blames source block.preorder (checkDeclarations source block) := by
  apply checkNames
  intro d hd
  exact (declaredNames_sublist block).subset (List.mem_map_of_mem hd)

theorem checkNode (profile : Profile) (c : Context) (n : ParseNode) :
    Blames source n.preorder (checkNode source profile c n) := by
  have hn := n.mem_preorder_self
  have hrest : Blames source n.preorder (do
      Rules.checkJump c n
      if blockTypes.contains n.type then Rules.checkDeclarations source n) := by
    apply Blames.bind (.checkJump hn c)
    intro _
    exact .ite (.checkDeclarations n) (.ok ())
  apply Blames.bind (.require hn _ _)
  intro _
  apply Blames.bind (.require hn _ _)
  intro _
  apply Blames.bind (.require hn _ _)
  intro _
  apply Blames.bind (.require hn _ _)
  intro _
  exact .ite (.bind (.checkStrict hn) fun _ => hrest) hrest

end Blames

end Rules

namespace Convert

variable {source : Bytes} {profile : Profile}

/-- The fault of the first node, in document order, that cannot be visited. -/
structure FirstFault (source : Bytes) (profile : Profile) (t : Task) (path : List Nat) (e : Error) :
    Prop where
  fault : ∃ u, t.at? path = some u ∧ visit source profile u.inName u.context u.node = .error e
  first : ∀ path' u, Before path' path → t.at? path' = some u →
    ∃ m, visit source profile u.inName u.context u.node = .ok m

theorem FirstFault.nil_iff {t : Task} {e : Error} :
    FirstFault source profile t [] e ↔ visit source profile t.inName t.context t.node = .error e := by
  constructor
  · rintro ⟨⟨u, hu, he⟩, -⟩
    obtain rfl := Option.some.inj hu
    exact he
  · intro he
    exact ⟨⟨t, rfl, he⟩, fun path' _ hbefore => absurd hbefore (Before.not_nil path')⟩

theorem FirstFault.cons_iff {t : Task} {i : Nat} {path : List Nat} {e : Error} :
    FirstFault source profile t (i :: path) e ↔
      (∃ m, visit source profile t.inName t.context t.node = .ok m) ∧
      (∃ c, t.children[i]? = some c ∧ FirstFault source profile c path e) ∧
      ∀ j < i, ∀ c, t.children[j]? = some c → ∃ n, c.convert source profile = .ok n := by
  constructor
  · rintro ⟨⟨u, hu, he⟩, hfirst⟩
    obtain ⟨c, hc, hcu⟩ := Option.bind_eq_some_iff.mp hu
    refine ⟨hfirst [] t (.nil_cons i path) rfl, ⟨c, hc, ⟨u, hcu, he⟩, ?_⟩, ?_⟩
    · intro path' v hbefore hv
      exact hfirst (i :: path') v (hbefore.cons i) (by rw [Task.at?, hc]; exact hv)
    · intro j hj d hd
      rw [Task.exists_convert_iff]
      intro v hv
      obtain ⟨path', hpath'⟩ := Task.mem_all_iff.mp hv
      exact hfirst (j :: path') v (.beside [] hj path' path) (by rw [Task.at?, hd]; exact hpath')
  · rintro ⟨hroot, ⟨c, hc, ⟨u, hu, he⟩, hfirst⟩, hbefore⟩
    refine ⟨⟨u, by rw [Task.at?, hc]; exact hu, he⟩, ?_⟩
    intro path' v hlt hv
    cases path' with
    | nil =>
        obtain rfl := Option.some.inj hv
        exact hroot
    | cons j path' =>
        obtain ⟨d, hd, hdv⟩ := Option.bind_eq_some_iff.mp hv
        rcases Before.cons_iff.mp hlt with hj | ⟨rfl, hbelow⟩
        · exact Task.exists_convert_iff.mp (hbefore j hj d hd) v
            (Task.mem_all_iff.mpr ⟨path', hdv⟩)
        · obtain rfl := Option.some.inj (hc.symm.trans hd)
          exact hfirst path' v hbelow hdv

theorem Task.convert_eq_error_iff_children {t : Task} {e : Error} :
    t.convert source profile = .error e ↔
      visit source profile t.inName t.context t.node = .error e ∨
        (∃ m, visit source profile t.inName t.context t.node = .ok m) ∧
          t.children.mapM (Task.convert source profile) = .error e := by
  rw [Task.convert_eq, bind_eq_error_iff]
  simp [bind_eq_error_iff, pure, Except.pure]

/-- The recursion stops at the first fault. -/
theorem Task.convert_eq_error_iff {t : Task} {e : Error} :
    t.convert source profile = .error e ↔ ∃ path, FirstFault source profile t path e := by
  induction t using Task.inductionOn with
  | h t ih =>
      rw [Task.convert_eq_error_iff_children, mapM_eq_error_iff]
      -- An address of a fault below the root starts with the first child that does not convert.
      constructor
      · rintro (hroot | ⟨hroot, i, c, hc, he, hbefore⟩)
        · exact ⟨[], FirstFault.nil_iff.mpr hroot⟩
        · obtain ⟨path, hpath⟩ := (ih c (List.mem_of_getElem? hc)).mp he
          exact ⟨i :: path, FirstFault.cons_iff.mpr ⟨hroot, ⟨c, hc, hpath⟩, hbefore⟩⟩
      · rintro ⟨path, h⟩
        cases path with
        | nil => exact .inl (FirstFault.nil_iff.mp h)
        | cons i path =>
            obtain ⟨hroot, ⟨c, hc, hpath⟩, hbefore⟩ := FirstFault.cons_iff.mp h
            exact .inr ⟨hroot, i, c, hc, (ih c (List.mem_of_getElem? hc)).mpr ⟨path, hpath⟩, hbefore⟩

/-- A tree with the types and spans of another one, node by node. -/
inductive Copies : ParseNode → Node → Prop
  | mk {n : ParseNode} {m : Node} (type_eq : m.type = n.type) (span_eq : m.span = n.span)
      (children : List.Forall₂ Copies n.children m.children) : Copies n m

theorem Task.copies {t : Task} {m : Node} (h : t.convert source profile = .ok m) :
    Copies t.node m := by
  induction t using Task.inductionOn generalizing m with
  | h t ih =>
      obtain ⟨hmade, hchildren⟩ := Task.made_of_convert h
      refine .mk hmade.type_eq hmade.span_eq ?_
      rw [← t.map_node_children, List.forall₂_map_left_iff]
      exact (forall₂_mem_left hchildren).imp fun c n hcn => ih c hcn.1 hcn.2

theorem blames_visit (inName : Bool) (c : Rules.Context) (n : ParseNode) :
    Rules.Blames source n.preorder (visit source profile inName c n) := by
  have hn := n.mem_preorder_self
  apply Rules.Blames.bind (.checkNode profile c n)
  intro _
  rw [makeNode_eq]
  split
  · intro e h
    cases htext : Rules.textOf source n with
    | ok text => rw [htext] at h; cases h
    | error e' =>
        rw [htext] at h
        obtain rfl := Except.error.inj h
        exact ⟨n, hn, .inr htext⟩
  · exact .ok _

theorem exists_textOf {text : String} {n : ParseNode}
    (h : IsBoundary text n.start ∧ IsBoundary text n.stop) :
    ∃ code, Rules.textOf (encode text) n = .ok code := by
  obtain ⟨code, hcode⟩ := h.1.isText_slice h.2
  exact ⟨code, textOf_eq_ok_iff.mpr hcode.symm⟩

/-- Where all nodes lie between characters, a fault is a rejection. -/
theorem FirstFault.exists_rejects {text : String} {root : ParseNode} {path : List Nat} {e : Error}
    (h : FirstFault (encode text) profile (Task.root root) path e)
    (hbound : OnBoundaries text (root.preorder.map ParseNode.span)) :
    ∃ n ∈ root.preorder, Rules.Rejects n e := by
  obtain ⟨u, hu, he⟩ := h.fault
  have hsub : ∀ n ∈ u.node.preorder, n ∈ root.preorder := fun n hn =>
    ParseNode.mem_preorder_trans hn (Task.node_mem_preorder (Task.mem_all_iff.mpr ⟨path, hu⟩))
  obtain ⟨n, hn, hrejects | hillegible⟩ := blames_visit u.inName u.context u.node e he
  · exact ⟨n, hsub n hn, hrejects⟩
  · obtain ⟨code, hcode⟩ := exists_textOf (hbound n.span (List.mem_map_of_mem (hsub n hn)))
    cases hillegible.symm.trans hcode

/-- The stack does what the recursion does. A tree is copied, or the first fault in document order is
told, which is a rejection if all nodes lie between characters. -/
theorem convert_in_document_order (source : Bytes) (profile : Profile) (root : ParseNode) :
    convert source profile root = convertRec source profile false {} root ∧
    (∀ node, convert source profile root = .ok node → Copies root node) ∧
    (∀ e, convert source profile root = .error e ↔
      ∃ path, FirstFault source profile (Task.root root) path e) ∧
    ∀ text, source = encode text → OnBoundaries text (root.preorder.map ParseNode.span) →
      ∀ e, convert source profile root = .error e → ∃ n ∈ root.preorder, Rules.Rejects n e := by
  have herror : ∀ e, convert source profile root = .error e ↔
      ∃ path, FirstFault source profile (Task.root root) path e := by
    intro e
    rw [convert_eq_convertRec]
    exact Task.convert_eq_error_iff (t := Task.root root)
  refine ⟨convert_eq_convertRec source profile root, ?_, herror, ?_⟩
  · intro node hnode
    rw [convert_eq_convertRec] at hnode
    exact Task.copies (t := Task.root root) hnode
  · rintro text rfl hbound e he
    obtain ⟨path, hpath⟩ := (herror e).mp he
    exact hpath.exists_rejects hbound

/-- Two faults side by side. The twentieth byte of the first is half of a character. -/
def halved : ParseNode :=
  let leaf (type : String) (start stop : Nat) : ParseNode :=
    .mk type start stop 0 start true false none []
  .mk "program" 0 22 0 0 true false none
    [leaf "identifier" 0 1, leaf "ERROR" 1 22, leaf "return_statement" 22 22]

theorem convert_halved :
    ∃ n ∈ halved.preorder, Rules.Rejects n
      (.request (.parse ⟨.unexpected "=bbbbbbbbbbbbbbbbbb\uFFFD", some 1, some 1⟩)) := by
  obtain ⟨-, -, hfirst, hrejects⟩ :=
    convert_in_document_order (encode "a=bbbbbbbbbbbbbbbbbbé") { name := "module" } halved
  refine hrejects _ rfl (by decide) _ ((hfirst _).mpr ⟨[1], FirstFault.cons_iff.mpr ⟨⟨_, rfl⟩, ?_, ?_⟩⟩)
  · exact ⟨_, rfl, FirstFault.nil_iff.mpr rfl⟩
  · intro j hj c hc
    obtain rfl : j = 0 := by omega
    obtain rfl := Option.some.inj hc
    exact ⟨_, rfl⟩

end Convert

end Pseudonym
