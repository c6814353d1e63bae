import Mathlib.Data.List.Chain
import Pseudonym.Proofs.Tree.Printing
import Pseudonym.Proofs.Tree.Rules

namespace Pseudonym

open Text Traversal

namespace ParseNode

/-- The nodes on the way to an address, the node there included. -/
def trail? (n : ParseNode) : List Nat → Option (List ParseNode)
  | [] => some [n]
  | i :: path => n.children[i]?.bind fun c => (c.trail? path).map (n :: ·)

theorem exists_of_trail?_cons {n : ParseNode} {i : Nat} {path : List Nat} {trail : List ParseNode}
    (h : n.trail? (i :: path) = some trail) :
    ∃ c rest, n.children[i]? = some c ∧ c.trail? path = some rest ∧ trail = n :: rest := by
  obtain ⟨c, hc, htrail⟩ := Option.bind_eq_some_iff.mp h
  obtain ⟨rest, hrest, rfl⟩ := Option.map_eq_some_iff.mp htrail
  exact ⟨c, rest, hc, hrest, rfl⟩

theorem head?_of_trail? {n : ParseNode} {path : List Nat} {trail : List ParseNode}
    (h : n.trail? path = some trail) : trail.head? = some n := by
  cases path with
  | nil =>
      obtain rfl := Option.some.inj h
      rfl
  | cons i path =>
      obtain ⟨c, rest, -, -, rfl⟩ := exists_of_trail?_cons h
      rfl

end ParseNode

def Node.at? (n : Node) : List Nat → Option Node
  | [] => some n
  | i :: path => n.children[i]?.bind fun c => c.at? path

namespace Convert

variable {source : Bytes} {profile : Profile}

/-- A child that is the name of its parent, which is a tag or an attribute. -/
def NamesTag (parent child : ParseNode) : Prop :=
  parent.type ∈ tagTypes ∧ child.type ∈ tagNameTypes

instance (parent child : ParseNode) : Decidable (NamesTag parent child) :=
  inferInstanceAs (Decidable (_ ∧ _))

theorem inTagName_eq_true_iff {inName : Bool} {parent child : ParseNode} :
    inTagName inName parent child = true ↔ inName = true ∨ NamesTag parent child := by
  simp [inTagName, NamesTag]

namespace Task

theorem made_of_convert {t : Task} {m : Node} (h : t.convert source profile = .ok m) :
    Made source profile t m ∧
      List.Forall₂ (fun c n => c.convert source profile = .ok n) t.children m.children := by
  rw [convert_eq] at h
  obtain ⟨shell, hshell, h⟩ := bind_eq_ok_iff.mp h
  obtain ⟨nodes, hnodes, h⟩ := bind_eq_ok_iff.mp h
  obtain rfl := Except.ok.inj h
  rw [mapM_eq_ok_iff] at hnodes
  refine ⟨⟨?_, ?_⟩, hnodes⟩
  · have hempty : shell.children = [] := (makeNode_fields (visit_eq_ok_iff.mp hshell).2).2.2.2
    have hsame : (shell.withChildren nodes).withChildren [] = shell := by
      rw [← hempty]
      exact shell.withChildren_children
    rw [hshell, hsame]
  · have hlength : nodes.length = t.children.length := hnodes.length_eq.symm
    rw [children, List.length_map] at hlength
    exact hlength

/-- Down a trail the mark of a tag's name is set where a tag is named, and stays set. -/
theorem exists_made_of_trail {t : Task} {m : Node} (h : t.convert source profile = .ok m)
    {path : List Nat} {trail : List ParseNode} {n : ParseNode}
    (htrail : t.node.trail? path = some trail) (hlast : trail.getLast? = some n) :
    ∃ u ∈ t.all, u.node = n ∧
      (u.inName = true ↔ t.inName = true ∨ ¬ trail.IsChain fun a b => ¬ NamesTag a b) ∧
      ∃ k, m.at? path = some k ∧ Made source profile u k := by
  -- The tasks of the children are not those of a root, so the mark at the start is left open.
  induction path generalizing t m trail with
  | nil =>
      obtain rfl := Option.some.inj htrail
      obtain rfl := Option.some.inj hlast
      refine ⟨t, by rw [all_eq]; exact List.mem_cons_self, rfl, ?_, m, rfl, (made_of_convert h).1⟩
      simp
  | cons i path ih =>
      obtain ⟨c, rest, hc, hrest, rfl⟩ := ParseNode.exists_of_trail?_cons htrail
      obtain ⟨below, rfl⟩ := List.head?_eq_some_iff.mp (ParseNode.head?_of_trail? hrest)
      rw [List.getLast?_cons_cons] at hlast
      let d : Task := ⟨c, inTagName t.inName t.node c, t.context.inside t.node.type⟩
      have hd : t.children[i]? = some d := by
        rw [children, List.getElem?_map, hc]
        rfl
      obtain ⟨k, hk, hconvert⟩ := forall₂_getElem? (made_of_convert h).2 hd
      obtain ⟨u, hu, hnode, hname, k', hk', hmade⟩ := ih hconvert hrest hlast
      refine ⟨u, ?_, hnode, ?_, k', ?_, hmade⟩
      · rw [all_eq]
        exact List.mem_cons_of_mem t (List.mem_flatMap.mpr ⟨d, List.mem_of_getElem? hd, hu⟩)
      · rw [hname, List.isChain_cons_cons, inTagName_eq_true_iff]
        tauto
      · rw [Node.at?, hk]
        exact hk'

theorem inName_eq_of_mem_all {t : Task} (h : ∀ u ∈ t.all, u.node.type ∉ tagTypes) :
    ∀ u ∈ t.all, u.inName = t.inName := by
  induction t using inductionOn with
  | h t ih =>
      intro u hu
      rw [all_eq] at h hu
      obtain ⟨htype, hbelow⟩ := List.forall_mem_cons.mp h
      rcases List.mem_cons.mp hu with rfl | hu
      · rfl
      · obtain ⟨c, hc, huc⟩ := List.mem_flatMap.mp hu
        have hname : c.inName = t.inName := by
          obtain ⟨child, -, rfl⟩ := List.mem_map.mp hc
          rw [Bool.eq_iff_iff, inTagName_eq_true_iff]
          exact ⟨fun hor => hor.resolve_right fun hnames => htype hnames.1, .inl⟩
        rw [← hname]
        exact ih c hc (fun v hv => hbelow v (List.mem_flatMap.mpr ⟨c, hc, hv⟩)) u huc

end Task

theorem isTagType_of_mem {type : String} (h : type ∈ tagTypes) : Rules.isTagType type = true := by
  have hall : ∀ type ∈ tagTypes, Rules.isTagType type = true := by decide
  exact hall type h

theorem inName_eq_false {root : ParseNode} {node : Node}
    (h : convert source profile root = .ok node) (htags : profile.tags = false) :
    ∀ u ∈ (Task.root root).all, u.inName = false := by
  apply Task.inName_eq_of_mem_all
  intro u hu htype
  obtain ⟨m, hm⟩ := exists_convert_iff.mp ⟨node, h⟩ u hu
  have hcheck := Rules.checkNode_eq_ok_iff.mp (visit_eq_ok_iff.mp hm).1
  rcases hcheck.2.2.1 with hprofile | hplain
  · rw [htags] at hprofile
    cases hprofile
  · rw [isTagType_of_mem htype] at hplain
    cases hplain

theorem kindOf_ne_tagName (n : ParseNode) : kindOf false n ≠ .tagName := by
  unfold kindOf
  split
  · exact Kind.noConfusion
  · cases n.children.isEmpty with
    | false => exact Kind.noConfusion
    | true =>
        cases hk : identifierKind? n.type with
        | none => exact Kind.noConfusion
        | some kind =>
            have hr := identifierKind?_isRedactable hk
            rintro rfl
            cases hr

theorem identifierKind?_eq_privateProperty_iff {type : String} :
    identifierKind? type = some .privateProperty ↔ type = "private_property_identifier" := by
  constructor
  · intro h
    obtain ⟨before, behind, htable, -⟩ := List.lookup_eq_some_iff.mp h
    have hall : ∀ entry ∈ before ++ (type, Kind.privateProperty) :: behind,
        entry.2 = .privateProperty → entry.1 = "private_property_identifier" := by
      rw [← htable]
      decide
    exact hall (type, .privateProperty) (by simp) rfl
  · rintro rfl
    rfl

namespace Made

variable {t : Task} {m : Node}

theorem isRedactable_iff (h : Made source profile t m) :
    m.isRedactable = true ↔
      t.node.children = [] ∧ (identifierKind? t.node.type).isSome = true ∧ t.inName = false := by
  rw [h.isRedactable_eq, h.isLeaf_eq]
  simp [and_assoc]

theorem spelling (h : Made source profile t m) (hr : m.isRedactable = true) :
    ∃ text name, slice source t.node.start t.node.stop = encode text ∧ text = m.sigil ++ name ∧
      m.name = (if name = "" then .null else .text name) ∧
      m.sigil = if t.node.type = "private_property_identifier" ∧ text.toList.head? = some '#'
        then "#" else "" := by
  obtain ⟨hleaf, hsome, hname⟩ := h.isRedactable_iff.mp hr
  obtain ⟨kind, hkind⟩ := Option.isSome_iff_exists.mp hsome
  have hmkind : m.kind = kind := by
    rw [h.kind_eq, hname]
    exact kindOf_of_identifier (List.isEmpty_iff.mpr hleaf) hkind
  have hprivate : m.kind = .privateProperty ↔ t.node.type = "private_property_identifier" := by
    rw [← identifierKind?_eq_privateProperty_iff, hkind, hmkind, Option.some.injEq]
  obtain ⟨text, htext, hsigil, hvalue⟩ := h.identifier hr
  refine ⟨text, (splitSigil m.kind text).2, textOf_eq_ok_iff.mp htext, ?_, ?_, ?_⟩
  · rw [hsigil, splitSigil_append]
  · simp only [hvalue, String.isEmpty_iff]
  · rw [hsigil, splitSigil_fst]
    simp only [hprivate]

end Made

end Convert

open Pseudonym.Convert (identifierKind? NamesTag Task)

/-- An identifier outside the names of tags can be renamed, and nothing else can. It is spelled by its
sigil and its name, and where tags are not allowed every identifier can be renamed. -/
theorem Parser.identifiers_of_tree {parser : Parser} {profile : Profile} {text : String}
    {root : ParseNode} {tree : Tree} (hroot : parser profile text = .ok root)
    (htree : parser.tree profile text = .ok tree) :
    (∀ path trail n, root.trail? path = some trail → trail.getLast? = some n →
      ∃ m, tree.root.at? path = some m ∧
        (m.isRedactable = true ↔ n.children = [] ∧ (identifierKind? n.type).isSome = true ∧
          trail.IsChain fun a b => ¬ NamesTag a b) ∧
        (m.isRedactable = true → ∃ code name, slice (encode text) n.start n.stop = encode code ∧
          code = m.sigil ++ name ∧ m.name = (if name = "" then .null else .text name) ∧
          m.sigil = if n.type = "private_property_identifier" ∧ code.toList.head? = some '#'
            then "#" else "")) ∧
    (profile.tags = false → (∀ m ∈ tree.nodes, m.kind ≠ .tagName) ∧
      ∀ path trail n, root.trail? path = some trail → trail.getLast? = some n → n.children = [] →
        (identifierKind? n.type).isSome = true →
          ∃ m, tree.root.at? path = some m ∧ m.isRedactable = true) := by
  obtain ⟨root', node, hroot', hnode, rfl⟩ := Parser.tree_eq_ok_iff.mp htree
  obtain rfl : root = root' := Except.ok.inj (hroot.symm.trans hroot')
  have hconvert : (Task.root root).convert (encode text) profile = .ok node := by
    rw [← hnode, Convert.convert_eq_convertRec]
    rfl
  refine ⟨fun path trail n htrail hlast => ?_, fun htags => ⟨fun m hm => ?_, ?_⟩⟩
  · obtain ⟨u, -, rfl, hname, m, hm, hmade⟩ := Task.exists_made_of_trail hconvert htrail hlast
    refine ⟨m, hm, ?_, hmade.spelling⟩
    have hfalse : u.inName = false ↔ trail.IsChain fun a b => ¬ NamesTag a b := by
      rw [← Bool.not_eq_true, hname]
      simp [Task.root]
    rw [hmade.isRedactable_iff, hfalse]
  · rw [Tree.nodes, Node.nodes_eq_preorder] at hm
    obtain ⟨u, hu, hmade⟩ := forall₂_exists_left (Convert.forall₂_made hnode) hm
    rw [hmade.kind_eq, Convert.inName_eq_false hnode htags u hu]
    exact Convert.kindOf_ne_tagName u.node
  · intro path trail n htrail hlast hleaf hkind
    obtain ⟨u, hu, rfl, -, m, hm, hmade⟩ := Task.exists_made_of_trail hconvert htrail hlast
    exact ⟨m, hm, hmade.isRedactable_iff.mpr
      ⟨hleaf, hkind, Convert.inName_eq_false hnode htags u hu⟩⟩

/-- The tree of a tag whose name has two parts, with a name for the value of an attribute. -/
def tagged : ParseNode :=
  let leaf (type : String) (start stop : Nat) : ParseNode :=
    .mk type start stop 0 start true false none []
  let inner (type : String) (start stop : Nat) (children : List ParseNode) : ParseNode :=
    .mk type start stop 0 start true false none children
  inner "program" 0 12 [inner "jsx_self_closing_element" 0 12
    [leaf "<" 0 1,
      inner "member_expression" 1 4
        [leaf "identifier" 1 2, leaf "." 2 3, leaf "property_identifier" 3 4],
      inner "jsx_attribute" 5 10
        [leaf "property_identifier" 5 6, leaf "=" 6 7,
          inner "jsx_expression" 7 10 [leaf "\x7b" 7 8, leaf "identifier" 8 9, leaf "\x7d" 9 10]],
      leaf "/>" 10 12]]

def taggedTree : Tree where
  root :=
    .mk .inner "program" 0 12 .null "" [.mk .inner "jsx_self_closing_element" 0 12 .null ""
      [.mk .token "<" 0 1 .null "" [],
        .mk .tagName "member_expression" 1 4 .null ""
          [.mk .tagName "identifier" 1 2 .null "" [], .mk .token "." 2 3 .null "" [],
            .mk .tagName "property_identifier" 3 4 .null "" []],
        .mk .inner "jsx_attribute" 5 10 .null ""
          [.mk .tagName "property_identifier" 5 6 .null "" [], .mk .token "=" 6 7 .null "" [],
            .mk .inner "jsx_expression" 7 10 .null ""
              [.mk .token "\x7b" 7 8 .null "" [], .mk .identifier "identifier" 8 9 (.text "d") "" [],
                .mk .token "\x7d" 9 10 .null "" []]],
        .mk .token "/>" 10 12 .null "" []]]
  source := encode "<A.b c=\x7bd\x7d/>"

/-- The first part of the tag's name lies two steps below the tag. -/
theorem identifiers_tagged :
    Parser.tree (fun _ _ => .ok tagged) { name := "page", tags := true } "<A.b c=\x7bd\x7d/>" =
        .ok taggedTree ∧
      (∃ m, taggedTree.root.at? [0, 1, 0] = some m ∧ m.isRedactable = false) ∧
      ∃ m, taggedTree.root.at? [0, 2, 2, 1] = some m ∧ m.isRedactable = true := by
  have htree : Parser.tree (fun _ _ => .ok tagged) { name := "page", tags := true }
      "<A.b c=\x7bd\x7d/>" = .ok taggedTree := by
    refine Parser.tree_eq_ok_iff.mpr ⟨tagged, _, rfl, ?_, rfl⟩
    rw [Convert.convert_eq_convertRec]
    rfl
  have hparts := (Parser.identifiers_of_tree rfl htree).1
  refine ⟨htree, ?_, ?_⟩
  · obtain ⟨m, hm, hiff, -⟩ := hparts [0, 1, 0] _ _ rfl rfl
    refine ⟨m, hm, ?_⟩
    rw [Bool.eq_false_iff, Ne, hiff]
    decide
  · obtain ⟨m, hm, hiff, -⟩ := hparts [0, 2, 2, 1] _ _ rfl rfl
    exact ⟨m, hm, hiff.mpr (by decide)⟩

end Pseudonym
