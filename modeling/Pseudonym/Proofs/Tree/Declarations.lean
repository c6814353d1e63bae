import Mathlib.Data.List.Flatten
import Mathlib.Data.List.Perm.Basic
import Pseudonym.Proofs.Tree.Rules

namespace Pseudonym

open Text (Bytes)
open Traversal

namespace ParseNode

def bare : ParseNode → ParseNode
  | mk t s e r c nm ms f _ => mk t s e r c nm ms f []

mutual

/-- The tree with nothing in the blocks below its root. -/
def hollow : ParseNode → ParseNode
  | mk t s e r c nm ms f cs => mk t s e r c nm ms f (hollowAll cs)

def hollowAll : List ParseNode → List ParseNode
  | [] => []
  | n :: ns => (if Rules.blockTypes.contains n.type then n.bare else n.hollow) :: hollowAll ns

end

def hollowed (n : ParseNode) : ParseNode :=
  if Rules.blockTypes.contains n.type then n.bare else n.hollow

theorem children_hollow (n : ParseNode) : n.hollow.children = n.children.map hollowed := by
  have hall : ∀ ns : List ParseNode, hollowAll ns = ns.map hollowed := by
    intro ns
    induction ns with
    | nil => rfl
    | cons n ns ih => rw [hollowAll, ih]; rfl
  cases n with
  | mk => exact hall _

/-- The node itself stays as it is, only its children may go. -/
structure SameFace (a b : ParseNode) : Prop where
  type : b.type = a.type
  start : b.start = a.start
  stop : b.stop = a.stop
  row : b.row = a.row
  column : b.column = a.column
  isNamed : b.isNamed = a.isNamed
  field : b.field = a.field

theorem sameFace_hollow (n : ParseNode) : SameFace n n.hollow := by
  cases n with
  | mk => exact ⟨rfl, rfl, rfl, rfl, rfl, rfl, rfl⟩

theorem sameFace_hollowed (n : ParseNode) : SameFace n n.hollowed := by
  rw [hollowed]
  split
  · cases n with
    | mk => exact ⟨rfl, rfl, rfl, rfl, rfl, rfl, rfl⟩
  · exact sameFace_hollow n

end ParseNode

namespace Rules

variable {source : Bytes} {d : Declared} {name : String} {lexical hoisted : List String}

theorem checkNames_cons_of_free (hname : textOf source d.node = .ok name)
    (hfree : Free source lexical hoisted d) (rest : List Declared) :
    checkNames source lexical hoisted (d :: rest) =
      checkNames source (if d.isLexical then name :: lexical else lexical)
        (if d.isLexical then hoisted else name :: hoisted) rest := by
  obtain ⟨name', hname', hlexical, hhoisted⟩ := hfree
  obtain rfl : name = name' := Except.ok.inj (hname.symm.trans hname')
  have hpass : (!(lexical.contains name || (d.isLexical && hoisted.contains name))) = true := by
    rcases hhoisted with hkind | hhoisted
    · simp [hlexical, hkind]
    · simp [hlexical, hhoisted]
  rw [checkNames, hname]
  simp only [bind, Except.bind, require, hpass, if_true]
  split <;> rfl

theorem checkNames_cons_of_not_free (hname : textOf source d.node = .ok name)
    (hfree : ¬ Free source lexical hoisted d) (rest : List Declared) :
    checkNames source lexical hoisted (d :: rest) = reject d.node (.redeclared name) := by
  have hstop : (!(lexical.contains name || (d.isLexical && hoisted.contains name))) = false := by
    rw [← Bool.not_eq_true]
    intro hpass
    refine hfree ⟨name, hname, ?_⟩
    simpa [← Bool.not_eq_true] using hpass
  rw [checkNames, hname]
  simp only [bind, Except.bind, require, hstop, Bool.false_eq_true, if_false, reject]

/-- The rule stops at the first name that is not free, whatever comes after it. -/
theorem checkNames_append {before : List Declared}
    (hbefore : checkNames source lexical hoisted before = .ok ())
    (hname : textOf source d.node = .ok name)
    (hstop : checkNames source lexical hoisted (before ++ [d]) ≠ .ok ()) (after : List Declared) :
    checkNames source lexical hoisted (before ++ d :: after) = reject d.node (.redeclared name) := by
  induction before generalizing lexical hoisted with
  | nil =>
      apply checkNames_cons_of_not_free hname
      intro hfree
      apply hstop
      rw [List.nil_append, checkNames_cons_of_free hname hfree]
      rfl
  | cons x before ih =>
      have hx : Free source lexical hoisted x :=
        (checkNames_eq_ok_iff.mp hbefore).1 x List.mem_cons_self
      obtain ⟨other, hother, -⟩ := id hx
      rw [List.cons_append, checkNames_cons_of_free hother hx] at *
      exact ih hbefore hstop

/-- A declared name that one before it excludes. -/
def Repeats (source : Bytes) (ds : List Declared) (j : Nat) : Prop :=
  ∃ i < j, ∃ c d, ds[i]? = some c ∧ ds[j]? = some d ∧ Clash source c d

theorem pairwise_iff_not_repeats {ds : List Declared} :
    (ds.Pairwise fun c d => ¬ Clash source c d) ↔ ∀ j, ¬ Repeats source ds j := by
  rw [List.pairwise_iff_getElem]
  constructor
  · rintro h j ⟨i, hij, c, d, hc, hd, hclash⟩
    obtain ⟨hi, rfl⟩ := List.getElem?_eq_some_iff.mp hc
    obtain ⟨hj, rfl⟩ := List.getElem?_eq_some_iff.mp hd
    exact h i j hi hj hij hclash
  · intro h i j hi hj hij hclash
    exact h j ⟨i, hij, _, _, List.getElem?_eq_getElem hi, List.getElem?_eq_getElem hj, hclash⟩

theorem repeats_take_iff {ds : List Declared} {j k : Nat} (h : j < k) :
    Repeats source (ds.take k) j ↔ Repeats source ds j := by
  have hsame : ∀ i < k, (ds.take k)[i]? = ds[i]? := fun i hi => List.getElem?_take_of_lt hi
  unfold Repeats
  rw [hsame j h]
  constructor
  · rintro ⟨i, hi, c, d, hc, hd⟩
    rw [hsame i (Nat.lt_trans hi h)] at hc
    exact ⟨i, hi, c, d, hc, hd⟩
  · rintro ⟨i, hi, c, d, hc, hd⟩
    rw [← hsame i (Nat.lt_trans hi h)] at hc
    exact ⟨i, hi, c, d, hc, hd⟩

theorem checkDeclarations_ne_ok_iff {block : ParseNode}
    (h : ∀ d ∈ declaredNames block, ∃ name, textOf source d.node = .ok name) :
    checkDeclarations source block ≠ .ok () ↔ ∃ j, Repeats source (declaredNames block) j := by
  rw [Ne, checkDeclarations_eq_ok_iff, pairwise_iff_not_repeats]
  constructor
  · intro hnot
    by_contra hnone
    exact hnot ⟨h, fun j hj => hnone ⟨j, hj⟩⟩
  · rintro ⟨j, hj⟩ ⟨-, hnone⟩
    exact hnone j hj

theorem checkNames_take_eq_ok_iff {ds : List Declared}
    (h : ∀ d ∈ ds, ∃ name, textOf source d.node = .ok name) {k : Nat} :
    checkNames source [] [] (ds.take k) = .ok () ↔ ∀ j < k, ¬ Repeats source ds j := by
  have hfree : ∀ d ∈ ds.take k, Free source [] [] d := by
    intro d hd
    obtain ⟨name, hname⟩ := h d (List.mem_of_mem_take hd)
    exact ⟨name, hname, List.not_mem_nil, .inr List.not_mem_nil⟩
  rw [checkNames_eq_ok_iff, and_iff_right hfree, pairwise_iff_not_repeats]
  constructor
  · intro hnone j hj hrepeats
    exact hnone j ((repeats_take_iff hj).mpr hrepeats)
  · rintro hnone j hrepeats
    by_cases hj : j < k
    · exact hnone j hj ((repeats_take_iff hj).mp hrepeats)
    · obtain ⟨i, -, c, d, -, hd, -⟩ := hrepeats
      rw [List.getElem?_eq_none (by rw [List.length_take]; omega)] at hd
      cases hd

/-- The first name that is declared again is the one that is told. -/
theorem checkDeclarations_of_repeats {block : ParseNode}
    (h : ∀ d ∈ declaredNames block, ∃ name, textOf source d.node = .ok name) {j : Nat}
    (hd : (declaredNames block)[j]? = some d) (hj : Repeats source (declaredNames block) j)
    (hfirst : ∀ k < j, ¬ Repeats source (declaredNames block) k) :
    ∃ name, textOf source d.node = .ok name ∧
      checkDeclarations source block = reject d.node (.redeclared name) := by
  obtain ⟨name, hname⟩ := h d (List.mem_of_getElem? hd)
  obtain ⟨hlt, hget⟩ := List.getElem?_eq_some_iff.mp hd
  have hbefore : checkNames source [] [] ((declaredNames block).take j) = .ok () :=
    (checkNames_take_eq_ok_iff h).mpr hfirst
  have hsplit : (declaredNames block).take (j + 1) = (declaredNames block).take j ++ [d] := by
    rw [List.take_add_one, hd]
    rfl
  have hstop : checkNames source [] [] ((declaredNames block).take j ++ [d]) ≠ .ok () := by
    rw [← hsplit, Ne, checkNames_take_eq_ok_iff h]
    exact fun hnone => hnone j (Nat.lt_succ_self j) hj
  refine ⟨name, hname, ?_⟩
  have hwhole : declaredNames block =
      (declaredNames block).take j ++ d :: (declaredNames block).drop (j + 1) := by
    rw [← hget, List.getElem_cons_drop, List.take_append_drop]
  rw [checkDeclarations, hwhole]
  exact checkNames_append hbefore hname hstop _

section Names

/-- A statement that declares with declarators. -/
def HasDeclarators (statement : ParseNode) : Prop :=
  statement.type = "lexical_declaration" ∨ statement.type = "variable_declaration"

/-- A statement that declares the one name that it has itself. -/
def HasTitle (statement : ParseNode) : Prop :=
  statement.type = "class_declaration" ∨ statement.type = "function_declaration" ∨
    statement.type = "generator_function_declaration"

theorem HasDeclarators.not_hasTitle {statement : ParseNode} (h : HasDeclarators statement) :
    ¬ HasTitle statement := by
  rw [HasTitle]
  rcases h with h | h <;> rw [h] <;> decide

instance (statement : ParseNode) : Decidable (HasDeclarators statement) :=
  inferInstanceAs (Decidable (_ ∨ _))

instance (statement : ParseNode) : Decidable (HasTitle statement) :=
  inferInstanceAs (Decidable (_ ∨ _))

theorem boundNames_eq (statement : ParseNode) :
    boundNames statement =
      (if HasDeclarators statement then
        (statement.namedChildren.filter fun d => d.type = "variable_declarator").filterMap
          (·.childByField? "name")
      else if HasTitle statement then (statement.childByField? "name").toList
      else []).filter isSimpleName := by
  unfold boundNames
  simp only [HasDeclarators, HasTitle, Bool.or_eq_true, decide_eq_true_eq, or_assoc]
  rfl

theorem boundNames_of_hasDeclarators {statement : ParseNode} (h : HasDeclarators statement) :
    boundNames statement =
      ((statement.namedChildren.filter fun d => d.type = "variable_declarator").filterMap
        (·.childByField? "name")).filter isSimpleName := by
  rw [boundNames_eq, if_pos h]

theorem boundNames_of_hasTitle {statement : ParseNode} (h : HasTitle statement) :
    boundNames statement = (statement.childByField? "name").toList.filter isSimpleName := by
  rw [boundNames_eq, if_neg fun hd => hd.not_hasTitle h, if_pos h]

theorem boundNames_of_other {statement : ParseNode} (hd : ¬ HasDeclarators statement)
    (ht : ¬ HasTitle statement) : boundNames statement = [] := by
  rw [boundNames_eq, if_neg hd, if_neg ht, List.filter_nil]

/-- A name that a declaration binds, and whether the name is lexical. -/
inductive Binds (statement : ParseNode) : Declared → Prop
  | declarator {d n : ParseNode} (htype : HasDeclarators statement)
      (hd : d ∈ statement.namedChildren) (hdtype : d.type = "variable_declarator")
      (hn : d.childByField? "name" = some n)
      (hsimple : n.type = "identifier" ∨ n.type = "type_identifier") :
      Binds statement ⟨n, statement.type = "lexical_declaration"⟩
  | title {n : ParseNode} (htype : HasTitle statement)
      (hn : statement.childByField? "name" = some n)
      (hsimple : n.type = "identifier" ∨ n.type = "type_identifier") :
      Binds statement ⟨n, statement.type = "class_declaration"⟩

/-- A name that a statement binds, by itself or by the declaration that it exports. -/
inductive Declares (statement : ParseNode) : Declared → Prop
  | here {d : Declared} (htype : statement.type ≠ "export_statement") (hd : Binds statement d) :
      Declares statement d
  | exported {declaration : ParseNode} {d : Declared} (htype : statement.type = "export_statement")
      (hdeclaration : statement.childByField? "declaration" = some declaration)
      (hd : Binds declaration d) : Declares statement d

theorem isSimpleName_iff {n : ParseNode} :
    isSimpleName n = true ↔ n.type = "identifier" ∨ n.type = "type_identifier" := by
  simp [isSimpleName]

def isLexical (statement : ParseNode) : Bool :=
  statement.type = "lexical_declaration" || statement.type = "class_declaration"

theorem HasDeclarators.isLexical_eq {statement : ParseNode} (h : HasDeclarators statement) :
    isLexical statement = decide (statement.type = "lexical_declaration") := by
  have hclass : statement.type ≠ "class_declaration" := fun hclass => h.not_hasTitle (.inl hclass)
  simp [isLexical, hclass]

theorem HasTitle.isLexical_eq {statement : ParseNode} (h : HasTitle statement) :
    isLexical statement = decide (statement.type = "class_declaration") := by
  have hlexical : statement.type ≠ "lexical_declaration" :=
    fun hlexical => HasDeclarators.not_hasTitle (.inl hlexical) h
  simp [isLexical, hlexical]

theorem mem_boundNames_iff {statement : ParseNode} {d : Declared} :
    d.node ∈ boundNames statement ∧ d.isLexical = isLexical statement ↔ Binds statement d := by
  obtain ⟨n, lexical⟩ := d
  constructor
  · rintro ⟨hn, rfl⟩
    by_cases hd : HasDeclarators statement
    · rw [boundNames_of_hasDeclarators hd] at hn
      obtain ⟨hn, hsimple⟩ := List.mem_filter.mp hn
      obtain ⟨d, hdecl, hname⟩ := List.mem_filterMap.mp hn
      obtain ⟨hdecl, hdtype⟩ := List.mem_filter.mp hdecl
      rw [hd.isLexical_eq]
      exact .declarator hd hdecl (of_decide_eq_true hdtype) hname (isSimpleName_iff.mp hsimple)
    · by_cases ht : HasTitle statement
      · rw [boundNames_of_hasTitle ht] at hn
        obtain ⟨hn, hsimple⟩ := List.mem_filter.mp hn
        rw [ht.isLexical_eq]
        exact .title ht (Option.mem_toList.mp hn) (isSimpleName_iff.mp hsimple)
      · rw [boundNames_of_other hd ht] at hn
        cases hn
  · intro h
    cases h with
    | @declarator d _ htype hd hdtype hn hsimple =>
        rw [boundNames_of_hasDeclarators htype, htype.isLexical_eq]
        refine ⟨List.mem_filter.mpr ⟨List.mem_filterMap.mpr ⟨d, ?_, hn⟩, ?_⟩, rfl⟩
        · exact List.mem_filter.mpr ⟨hd, decide_eq_true hdtype⟩
        · exact isSimpleName_iff.mpr hsimple
    | title htype hn hsimple =>
        rw [boundNames_of_hasTitle htype, htype.isLexical_eq]
        exact ⟨List.mem_filter.mpr ⟨Option.mem_toList.mpr hn, isSimpleName_iff.mpr hsimple⟩, rfl⟩

theorem mem_declaredBy_iff {statement : ParseNode} {d : Declared} :
    d ∈ declaredBy statement ↔ Declares statement d := by
  have hmap : ∀ declaration : ParseNode,
      d ∈ (boundNames declaration).map (fun node => ⟨node, isLexical declaration⟩) ↔
        Binds declaration d := by
    intro declaration
    rw [← mem_boundNames_iff, List.mem_map]
    constructor
    · rintro ⟨n, hn, rfl⟩
      exact ⟨hn, rfl⟩
    · rintro ⟨hn, hlexical⟩
      exact ⟨d.node, hn, by rw [← hlexical]⟩
  rw [declaredBy, declaration?]
  by_cases htype : statement.type = "export_statement"
  · rw [if_pos htype]
    cases hdeclaration : statement.childByField? "declaration" with
    | none =>
        refine ⟨fun h => absurd h List.not_mem_nil, fun h => ?_⟩
        cases h with
        | here hne => exact absurd htype hne
        | exported _ hsome => cases hdeclaration.symm.trans hsome
    | some declaration =>
        refine (hmap declaration).trans ⟨.exported htype hdeclaration, fun h => ?_⟩
        cases h with
        | here hne => exact absurd htype hne
        | exported _ hsome hd =>
            obtain rfl := Option.some.inj (hdeclaration.symm.trans hsome)
            exact hd
  · rw [if_neg htype]
    refine (hmap statement).trans ⟨.here htype, fun h => ?_⟩
    cases h with
    | here _ hd => exact hd
    | exported hexport => exact absurd hexport htype

theorem mem_declaredNames_iff {block : ParseNode} {d : Declared} :
    d ∈ declaredNames block ↔ ∃ statement ∈ block.namedChildren, Declares statement d := by
  simp only [declaredNames, List.mem_flatMap, mem_declaredBy_iff]

theorem childByField?_sublist (n : ParseNode) (name : String) :
    (n.childByField? name).toList.Sublist (n.children.flatMap ParseNode.preorder) := by
  cases hchild : n.childByField? name with
  | none => exact List.nil_sublist _
  | some c =>
      refine List.singleton_sublist.mpr (List.mem_flatMap.mpr ⟨c, List.mem_of_find?_eq_some hchild, ?_⟩)
      rw [ParseNode.preorder_eq]
      exact List.mem_cons_self

theorem namedChildren_flatMap_sublist (n : ParseNode) {f : ParseNode → List ParseNode}
    (hf : ∀ c, (f c).Sublist c.preorder) :
    (n.namedChildren.flatMap f).Sublist (n.children.flatMap ParseNode.preorder) :=
  (List.filter_sublist.flatMap f).trans (.flatMap_right _ fun c _ => hf c)

theorem boundNames_sublist (statement : ParseNode) :
    (boundNames statement).Sublist (statement.children.flatMap ParseNode.preorder) := by
  by_cases hd : HasDeclarators statement
  · rw [boundNames_of_hasDeclarators hd, List.filterMap_eq_flatMap_toList]
    refine List.filter_sublist.trans ((List.filter_sublist.flatMap _).trans
      (namedChildren_flatMap_sublist statement fun d => ?_))
    rw [d.preorder_eq]
    exact (childByField?_sublist d "name").trans (List.sublist_cons_self _ _)
  · by_cases ht : HasTitle statement
    · rw [boundNames_of_hasTitle ht]
      exact List.filter_sublist.trans (childByField?_sublist statement "name")
    · rw [boundNames_of_other hd ht]
      exact List.nil_sublist _

theorem declaredBy_sublist (statement : ParseNode) :
    ((declaredBy statement).map (·.node)).Sublist statement.preorder := by
  have hbound : ∀ declaration : ParseNode, (boundNames declaration).Sublist declaration.preorder := by
    intro declaration
    rw [declaration.preorder_eq]
    exact (boundNames_sublist declaration).trans (List.sublist_cons_self _ _)
  rw [declaredBy]
  cases hdeclaration : declaration? statement with
  | none => exact List.nil_sublist _
  | some declaration =>
      simp only [List.map_map, Function.comp_def, List.map_id']
      refine (hbound declaration).trans ?_
      rw [declaration?] at hdeclaration
      split at hdeclaration
      · have hmem := List.mem_of_find?_eq_some hdeclaration
        have hsub := (List.singleton_sublist.mpr hmem).flatMap ParseNode.preorder
        rw [List.flatMap_singleton] at hsub
        rw [statement.preorder_eq]
        exact hsub.trans (List.sublist_cons_self _ _)
      · rw [Option.some.inj hdeclaration]

/-- The names stand in the order in which the text has them. -/
theorem declaredNames_sublist (block : ParseNode) :
    ((declaredNames block).map (·.node)).Sublist block.preorder := by
  rw [declaredNames, List.map_flatMap, block.preorder_eq]
  exact (namedChildren_flatMap_sublist block declaredBy_sublist).trans (List.sublist_cons_self _ _)

end Names

section Order

def declarations (source : Bytes) (block : ParseNode) : List (Except Error String × Bool) :=
  (declaredNames block).map fun d => (textOf source d.node, d.isLexical)

theorem checkDeclarations_congr_perm {source source' : Bytes} {block block' : ParseNode}
    (h : (declarations source' block').Perm (declarations source block)) :
    checkDeclarations source' block' = .ok () ↔ checkDeclarations source block = .ok () := by
  -- A clash is of two nodes; said of the names alone, it does not depend on where they stand.
  let compatible (x y : Except Error String × Bool) : Prop :=
    ¬ ((x.2 = true ∨ y.2 = true) ∧ ∃ name, x.1 = .ok name ∧ y.1 = .ok name)
  have hsymm : ∀ x y, compatible x y → compatible y x := by
    rintro x y hxy ⟨hkind, name, hy, hx⟩
    exact hxy ⟨hkind.symm, name, hx, hy⟩
  have hiff : ∀ (source : Bytes) (block : ParseNode), checkDeclarations source block = .ok () ↔
      (∀ x ∈ declarations source block, ∃ name, x.1 = .ok name) ∧
        (declarations source block).Pairwise compatible := by
    intro source block
    rw [checkDeclarations_eq_ok_iff, declarations, List.forall_mem_map, List.pairwise_map]
    rfl
  rw [hiff, hiff, h.pairwise_iff (hsymm _ _)]
  simp only [h.mem_iff]

end Order

section Hollow

open ParseNode (hollowed)

theorem namedChildren_hollow (n : ParseNode) :
    n.hollow.namedChildren = n.namedChildren.map hollowed := by
  rw [ParseNode.namedChildren, n.children_hollow, List.filter_map]
  congr 1
  exact List.filter_congr fun c _ => c.sameFace_hollowed.isNamed

theorem childByField?_hollow (n : ParseNode) (name : String) :
    n.hollow.childByField? name = (n.childByField? name).map hollowed := by
  rw [ParseNode.childByField?, n.children_hollow, List.find?_map]
  congr 2
  funext c
  rw [Function.comp_apply, c.sameFace_hollowed.field]

theorem hollowed_of_notMem {n : ParseNode} (h : n.type ∉ blockTypes) : n.hollowed = n.hollow := by
  rw [hollowed, if_neg (by simpa using h)]

theorem filter_type_hollowed (p : String → Bool) (ns : List ParseNode) :
    (ns.map hollowed).filter (fun n => p n.type) = (ns.filter fun n => p n.type).map hollowed := by
  rw [List.filter_map]
  congr 1
  refine List.filter_congr fun n _ => ?_
  rw [Function.comp_apply, n.sameFace_hollowed.type]

theorem boundNames_hollowed (statement : ParseNode) :
    boundNames statement.hollowed = (boundNames statement).map hollowed := by
  have htype := statement.sameFace_hollowed.type
  have hsimple : ∀ ns : List ParseNode,
      (ns.map hollowed).filter isSimpleName = (ns.filter isSimpleName).map hollowed :=
    filter_type_hollowed fun type => type = "identifier" || type = "type_identifier"
  by_cases hd : HasDeclarators statement
  · have hhollow : statement.hollowed = statement.hollow := by
      apply hollowed_of_notMem
      rcases hd with h | h <;> rw [h] <;> decide
    -- A declarator is no block, so its name is still there.
    have hnames : ∀ d ∈ statement.namedChildren.filter (fun d => d.type = "variable_declarator"),
        ((·.childByField? "name") ∘ hollowed) d = (d.childByField? "name").map hollowed := by
      intro d hd
      have hdtype := of_decide_eq_true (List.mem_filter.mp hd).2
      rw [Function.comp_apply, hollowed_of_notMem (by rw [hdtype]; decide), childByField?_hollow]
    rw [boundNames_of_hasDeclarators hd, boundNames_of_hasDeclarators (by rwa [HasDeclarators, htype]),
      ← hsimple, hhollow, namedChildren_hollow, List.map_filterMap]
    rw [filter_type_hollowed (fun type => type = "variable_declarator"), List.filterMap_map,
      List.filterMap_congr hnames]
  · by_cases ht : HasTitle statement
    · have hhollow : statement.hollowed = statement.hollow := by
        apply hollowed_of_notMem
        rcases ht with h | h | h <;> rw [h] <;> decide
      rw [boundNames_of_hasTitle ht, boundNames_of_hasTitle (by rwa [HasTitle, htype]), ← hsimple,
        hhollow, childByField?_hollow, Option.toList_map]
    · rw [boundNames_of_other hd ht, boundNames_of_other (by rwa [HasDeclarators, htype])
        (by rwa [HasTitle, htype])]
      rfl

def Declared.hollowed (d : Declared) : Declared := ⟨d.node.hollowed, d.isLexical⟩

theorem declaredBy_hollowed (statement : ParseNode) :
    declaredBy statement.hollowed = (declaredBy statement).map Declared.hollowed := by
  have hdeclaration : declaration? statement.hollowed = (declaration? statement).map hollowed := by
    rw [declaration?, declaration?, statement.sameFace_hollowed.type]
    split
    next htype =>
      rw [hollowed_of_notMem (by rw [htype]; decide), childByField?_hollow]
    next => rfl
  rw [declaredBy, declaredBy, hdeclaration]
  cases declaration? statement with
  | none => rfl
  | some declaration =>
      simp only [Option.map_some, boundNames_hollowed, List.map_map,
        declaration.sameFace_hollowed.type]
      rfl

theorem declaredNames_hollow (block : ParseNode) :
    declaredNames block.hollow = (declaredNames block).map Declared.hollowed := by
  rw [declaredNames, declaredNames, namedChildren_hollow, List.flatMap_map, List.map_flatMap]
  simp only [declaredBy_hollowed]

theorem checkNames_hollowed (source : Bytes) (lexical hoisted : List String) (ds : List Declared) :
    checkNames source lexical hoisted (ds.map Declared.hollowed) =
      checkNames source lexical hoisted ds := by
  induction ds generalizing lexical hoisted with
  | nil => rfl
  | cons d ds ih =>
      have hface := d.node.sameFace_hollowed
      have htext : textOf source d.node.hollowed = textOf source d.node := by
        rw [textOf, textOf, hface.start, hface.stop]
      simp only [List.map_cons, checkNames, Declared.hollowed, htext, require, reject, hface.row,
        hface.column, ih]

/-- Blocks with the same statements around the blocks inside them are judged alike. -/
theorem checkDeclarations_eq_of_hollow {source : Bytes} {block block' : ParseNode}
    (h : block'.hollow = block.hollow) :
    checkDeclarations source block' = checkDeclarations source block := by
  have hhollow : ∀ b : ParseNode, checkDeclarations source b.hollow = checkDeclarations source b := by
    intro b
    rw [checkDeclarations, declaredNames_hollow, checkNames_hollowed]
    rfl
  rw [← hhollow block', h, hhollow]

end Hollow

theorem checkDeclarations_exact {source : Bytes} {block : ParseNode}
    (h : ∀ d ∈ declaredNames block, ∃ name, textOf source d.node = .ok name) :
    (∀ d, d ∈ declaredNames block ↔ ∃ statement ∈ block.namedChildren, Declares statement d) ∧
      ((declaredNames block).map (·.node)).Sublist block.preorder ∧
      (checkDeclarations source block ≠ .ok () ↔ ∃ j, Repeats source (declaredNames block) j) ∧
      (∀ j d, (declaredNames block)[j]? = some d → Repeats source (declaredNames block) j →
        (∀ k < j, ¬ Repeats source (declaredNames block) k) →
        ∃ name, textOf source d.node = .ok name ∧
          checkDeclarations source block =
            .error (.request (.parse ⟨.redeclared name, some (d.node.row + 1), some d.node.column⟩))) ∧
      (∀ source' block', (declarations source' block').Perm (declarations source block) →
        (checkDeclarations source' block' = .ok () ↔ checkDeclarations source block = .ok ())) ∧
      ∀ block', block'.hollow = block.hollow →
        checkDeclarations source block' = checkDeclarations source block :=
  ⟨fun _ => mem_declaredNames_iff, declaredNames_sublist block, checkDeclarations_ne_ok_iff h,
    fun _ _ hd hj hfirst => checkDeclarations_of_repeats h hd hj hfirst,
    fun _ _ hperm => checkDeclarations_congr_perm hperm,
    fun _ hhollow => checkDeclarations_eq_of_hollow hhollow⟩

/-- A variable, then two names of a block, the second of which is that of the variable. -/
def twice : ParseNode :=
  let name (start : Nat) : ParseNode :=
    .mk "identifier" start (start + 1) 0 start true false (some "name") []
  let declarator (start : Nat) : ParseNode :=
    .mk "variable_declarator" start (start + 1) 0 start true false none [name start]
  let statement (type : String) (children : List ParseNode) : ParseNode :=
    .mk type 0 0 0 0 true false none children
  statement "program"
    [statement "export_statement"
        [.mk "variable_declaration" 7 13 0 7 true false (some "declaration") [declarator 11]],
      statement "lexical_declaration" [declarator 17, declarator 19]]

theorem checkDeclarations_twice :
    (∀ d ∈ declaredNames twice, ∃ name, textOf (Text.encode "export var a;let b,a") d.node = .ok name) ∧
      Repeats (Text.encode "export var a;let b,a") (declaredNames twice) 2 ∧
      checkDeclarations (Text.encode "export var a;let b,a") twice =
        .error (.request (.parse ⟨.redeclared "a", some 1, some 19⟩)) := by
  have hnames : ∀ d ∈ declaredNames twice,
      ∃ name, textOf (Text.encode "export var a;let b,a") d.node = .ok name :=
    List.forall_mem_cons.mpr ⟨⟨"a", rfl⟩, List.forall_mem_cons.mpr ⟨⟨"b", rfl⟩,
      List.forall_mem_cons.mpr ⟨⟨"a", rfl⟩, fun _ => nofun⟩⟩⟩
  have hrepeats : Repeats (Text.encode "export var a;let b,a") (declaredNames twice) 2 :=
    ⟨0, by decide, _, _, rfl, rfl, .inr rfl, "a", rfl, rfl⟩
  obtain ⟨name, hname, herror⟩ := (checkDeclarations_exact hnames).2.2.2.1 2 _ rfl hrepeats
    ((checkNames_take_eq_ok_iff hnames).mp rfl)
  obtain rfl : "a" = name := Except.ok.inj hname
  exact ⟨hnames, hrepeats, herror⟩

end Rules

end Pseudonym
