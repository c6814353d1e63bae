import Pseudonym.Proofs.Tree.Identifiers

namespace Pseudonym

open Text (Bytes encode)
open Traversal

namespace Rules

/-- A construct that no jump leaves. -/
def isBarrier (n : ParseNode) : Bool :=
  functionTypes.contains n.type || n.type = "class_static_block"

def barrier? (above : List ParseNode) : Option ParseNode := above.reverse.find? isBarrier

/-- The nodes above that a jump can leave, from the nearest on. -/
def inner (above : List ParseNode) : List ParseNode := above.reverse.takeWhile fun a => !isBarrier a

def isLoop (n : ParseNode) : Bool := loopTypes.contains n.type

def surroundings (above : List ParseNode) : Context where
  inFunction := (barrier? above).any fun b => functionTypes.contains b.type
  breakable := (inner above).any fun a => isLoop a || a.type = "switch_statement"
  inLoop := (inner above).any isLoop
  labelled := (inner above).any fun a => a.type = "labeled_statement"

theorem barrier?_concat (above : List ParseNode) (a : ParseNode) :
    barrier? (above ++ [a]) = if isBarrier a then some a else barrier? above := by
  rw [barrier?, List.reverse_concat, List.find?_cons]
  cases isBarrier a <;> rfl

theorem inner_concat (above : List ParseNode) (a : ParseNode) :
    inner (above ++ [a]) = if isBarrier a then [] else a :: inner above := by
  rw [inner, List.reverse_concat, List.takeWhile_cons]
  cases isBarrier a <;> rfl

theorem surroundings_of_isBarrier {a : ParseNode} (h : isBarrier a = true) (above : List ParseNode) :
    surroundings (above ++ [a]) = { inFunction := functionTypes.contains a.type } := by
  rw [surroundings, barrier?_concat, inner_concat, if_pos h, if_pos h]
  rfl

theorem surroundings_of_not_isBarrier {a : ParseNode} (h : isBarrier a = false)
    (above : List ParseNode) :
    surroundings (above ++ [a]) =
      { inFunction := (surroundings above).inFunction
        breakable := (isLoop a || a.type = "switch_statement") || (surroundings above).breakable
        inLoop := isLoop a || (surroundings above).inLoop
        labelled := a.type = "labeled_statement" || (surroundings above).labelled } := by
  have hnot : ¬ isBarrier a = true := by rw [h]; exact Bool.false_ne_true
  rw [surroundings, barrier?_concat, inner_concat, if_neg hnot, if_neg hnot]
  rfl

/-- One node more above changes the context as going into it does. -/
theorem surroundings_concat (above : List ParseNode) (a : ParseNode) :
    surroundings (above ++ [a]) = (surroundings above).inside a.type := by
  rw [Context.inside]
  split
  next hfunction =>
    rw [surroundings_of_isBarrier (by rw [isBarrier, hfunction, Bool.true_or]), hfunction]
  next hfunction =>
    split
    next hstatic =>
      rw [surroundings_of_isBarrier (by simp [isBarrier, hstatic]), hstatic]
      rfl
    next hstatic =>
      rw [surroundings_of_not_isBarrier
        (by rw [isBarrier, Bool.eq_false_iff.mpr hfunction, decide_eq_false hstatic, Bool.or_false])]
      split
      next hloop =>
        have hlabel : a.type ≠ "labeled_statement" := by
          intro hlabel
          rw [hlabel] at hloop
          exact absurd hloop (by decide)
        simp only [isLoop, hloop, hlabel, Bool.true_or, decide_false, Bool.false_or]
      next hloop =>
        rw [isLoop, Bool.eq_false_iff.mpr hloop]
        split
        next hswitch => simp [hswitch]
        next hswitch =>
          split
          next hlabel => simp [hlabel]
          next hlabel => simp [hswitch, hlabel]

theorem foldl_inside (above : List ParseNode) :
    above.foldl (fun c a => c.inside a.type) {} = surroundings above := by
  induction above using List.reverseRecOn with
  | nil => rfl
  | append_singleton above a ih =>
      rw [List.foldl_append, ih, surroundings_concat]
      rfl

def HasLabel (n : ParseNode) : Prop := ∃ c ∈ n.children, c.type = "statement_identifier"

instance : DecidablePred HasLabel := fun n =>
  inferInstanceAs (Decidable (∃ c ∈ n.children, c.type = "statement_identifier"))

/-- A jump that has nothing to go to, given the nodes above it. -/
@[mk_iff]
inductive Misplaced (above : List ParseNode) (n : ParseNode) : Prop
  | ofReturn (hn : n.type = "return_statement")
      (h : ∀ b, barrier? above = some b → b.type = "class_static_block")
  | ofBreak (hn : n.type = "break_statement") (hlabel : ¬ HasLabel n)
      (h : ∀ a ∈ inner above, a.type ∉ loopTypes ∧ a.type ≠ "switch_statement")
  | ofContinue (hn : n.type = "continue_statement") (hlabel : ¬ HasLabel n)
      (h : ∀ a ∈ inner above, a.type ∉ loopTypes)
  | ofLabelledBreak (hn : n.type = "break_statement") (hlabel : HasLabel n)
      (h : ∀ a ∈ inner above, a.type ≠ "labeled_statement")
  | ofLabelledContinue (hn : n.type = "continue_statement") (hlabel : HasLabel n)
      (h : (∀ a ∈ inner above, a.type ≠ "labeled_statement") ∨
        ∀ a ∈ inner above, a.type ∉ loopTypes)

section Flags

variable {above : List ParseNode}

theorem inFunction_eq_false_iff :
    (surroundings above).inFunction = false ↔
      ∀ b, barrier? above = some b → b.type = "class_static_block" := by
  have hflag : (surroundings above).inFunction =
      (barrier? above).any fun b => functionTypes.contains b.type := rfl
  rw [hflag]
  cases hbarrier : barrier? above with
  | none => simp
  | some b =>
      have hb : functionTypes.contains b.type = true ∨ b.type = "class_static_block" := by
        simpa [isBarrier] using List.find?_some hbarrier
      have hstatic : functionTypes.contains "class_static_block" = false := by decide
      simp only [Option.any_some, Option.some.injEq, forall_eq']
      constructor
      · intro hnot
        rw [hnot] at hb
        exact hb.resolve_left Bool.false_ne_true
      · intro htype
        rw [htype, hstatic]

theorem breakable_eq_false_iff :
    (surroundings above).breakable = false ↔
      ∀ a ∈ inner above, a.type ∉ loopTypes ∧ a.type ≠ "switch_statement" := by
  simp [surroundings, isLoop]

theorem inLoop_eq_false_iff :
    (surroundings above).inLoop = false ↔ ∀ a ∈ inner above, a.type ∉ loopTypes := by
  simp [surroundings, isLoop]

theorem labelled_eq_false_iff :
    (surroundings above).labelled = false ↔ ∀ a ∈ inner above, a.type ≠ "labeled_statement" := by
  simp [surroundings]

end Flags

theorem jumpAllowed_eq_of_hasLabel {c : Context} {n : ParseNode} (h : HasLabel n) :
    jumpAllowed c n =
      if n.type = "break_statement" then c.labelled
      else if n.type = "continue_statement" then c.labelled && c.inLoop
      else true := by
  have hany : (n.children.any fun child => child.type = "statement_identifier") = true := by
    simpa [HasLabel] using h
  rw [jumpAllowed, hany]
  rfl

theorem jumpAllowed_eq_of_not_hasLabel {c : Context} {n : ParseNode} (h : ¬ HasLabel n) :
    jumpAllowed c n =
      if n.type = "break_statement" then c.breakable
      else if n.type = "continue_statement" then c.inLoop
      else true := by
  have hany : (n.children.any fun child => child.type = "statement_identifier") = false := by
    simpa [HasLabel] using h
  rw [jumpAllowed, hany]
  rfl

theorem checkJump_ne_ok_iff (above : List ParseNode) (n : ParseNode) :
    checkJump (surroundings above) n ≠ .ok () ↔ Misplaced above n := by
  have hjump : checkJump (surroundings above) n ≠ .ok () ↔
      (n.type = "return_statement" ∧ (surroundings above).inFunction = false) ∨
        jumpAllowed (surroundings above) n = false := by
    rw [Ne, checkJump_eq_ok_iff, not_and_or, not_or, not_not]
    simp only [Bool.not_eq_true]
  rw [hjump, misplaced_iff, inFunction_eq_false_iff]
  by_cases hlabel : HasLabel n
  · rw [jumpAllowed_eq_of_hasLabel hlabel]
    by_cases hbreak : n.type = "break_statement"
    · simp [hbreak, hlabel, labelled_eq_false_iff]
    · by_cases hcontinue : n.type = "continue_statement"
      · rw [if_neg hbreak, if_pos hcontinue, Bool.and_eq_false_iff, labelled_eq_false_iff,
          inLoop_eq_false_iff]
        simp [hcontinue, hlabel]
      · simp [hbreak, hcontinue]
  · rw [jumpAllowed_eq_of_not_hasLabel hlabel]
    by_cases hbreak : n.type = "break_statement"
    · simp [hbreak, hlabel, breakable_eq_false_iff]
    · by_cases hcontinue : n.type = "continue_statement"
      · simp [hcontinue, hlabel, inLoop_eq_false_iff]
      · simp [hbreak, hcontinue]

/-- The rules for a node that do not depend on what is above it. -/
structure Regular (source : Bytes) (profile : Profile) (n : ParseNode) : Prop where
  type_ne : n.type ≠ "ERROR"
  present : n.isMissing = false
  tags : profile.tags = true ∨ isTagType n.type = false
  place : profile.sourceType = .module ∨ n.type ∉ moduleOnlyTypes
  strict : profile.sourceType = .module → checkStrict source n = .ok ()
  declarations : n.type ∈ blockTypes → checkDeclarations source n = .ok ()

theorem checkNode_eq_ok_iff_regular {source : Bytes} {profile : Profile} {c : Context}
    {n : ParseNode} :
    checkNode source profile c n = .ok () ↔ Regular source profile n ∧ checkJump c n = .ok () := by
  rw [checkNode_eq_ok_iff]
  constructor
  · rintro ⟨htype, hpresent, htags, hplace, hstrict, hjump, hdeclarations⟩
    exact ⟨⟨htype, hpresent, htags, hplace, hstrict, hdeclarations⟩, hjump⟩
  · rintro ⟨⟨htype, hpresent, htags, hplace, hstrict, hdeclarations⟩, hjump⟩
    exact ⟨htype, hpresent, htags, hplace, hstrict, hjump, hdeclarations⟩

end Rules

namespace Convert

open Rules (Context)

variable {source : Bytes} {profile : Profile}

def Task.at? (t : Task) : List Nat → Option Task
  | [] => some t
  | i :: path => t.children[i]?.bind fun c => c.at? path

theorem Task.mem_all_iff {t u : Task} : u ∈ t.all ↔ ∃ path, t.at? path = some u := by
  induction t using Task.inductionOn with
  | h t ih =>
      rw [all_eq, List.mem_cons, List.mem_flatMap]
      constructor
      · rintro (rfl | ⟨c, hc, hu⟩)
        · exact ⟨[], rfl⟩
        · obtain ⟨path, hpath⟩ := (ih c hc).mp hu
          obtain ⟨i, hi⟩ := List.mem_iff_getElem?.mp hc
          exact ⟨i :: path, by rw [at?, hi]; exact hpath⟩
      · rintro ⟨path, hpath⟩
        cases path with
        | nil => exact .inl (Option.some.inj hpath).symm
        | cons i path =>
            obtain ⟨c, hc, hu⟩ := Option.bind_eq_some_iff.mp hpath
            have hmem := List.mem_of_getElem? hc
            exact .inr ⟨c, hmem, (ih c hmem).mpr ⟨path, hu⟩⟩

theorem Task.getElem?_children (t : Task) (i : Nat) :
    t.children[i]? = t.node.children[i]?.map fun c =>
      ⟨c, inTagName t.inName t.node c, t.context.inside t.node.type⟩ := by
  rw [children, List.getElem?_map]

theorem Task.exists_at? {t : Task} {path : List Nat} {trail : List ParseNode}
    (h : t.node.trail? path = some trail) : ∃ u, t.at? path = some u := by
  induction path generalizing t trail with
  | nil => exact ⟨t, rfl⟩
  | cons i path ih =>
      obtain ⟨c, rest, hc, hrest, rfl⟩ := ParseNode.exists_of_trail?_cons h
      rw [at?, getElem?_children, hc]
      exact ih hrest

/-- A task is for the node at its address, in the context that the nodes above it make up. -/
theorem Task.trail_of_at? {t u : Task} {path : List Nat} (h : t.at? path = some u) :
    ∃ above, t.node.trail? path = some (above ++ [u.node]) ∧
      u.context = above.foldl (fun c a => c.inside a.type) t.context ∧
      (u.inName = true ↔
        t.inName = true ∨ ¬ (above ++ [u.node]).IsChain fun a b => ¬ NamesTag a b) := by
  induction path generalizing t with
  | nil =>
      obtain rfl := Option.some.inj h
      exact ⟨[], rfl, rfl, by simp⟩
  | cons i path ih =>
      rw [at?, getElem?_children] at h
      obtain ⟨c, hc, hu⟩ := Option.bind_eq_some_iff.mp h
      obtain ⟨child, hchild, rfl⟩ := Option.map_eq_some_iff.mp hc
      obtain ⟨above, htrail, hcontext, hname⟩ := ih hu
      refine ⟨t.node :: above, ?_, hcontext, ?_⟩
      · rw [ParseNode.trail?, hchild, Option.bind_some, htrail]
        rfl
      · -- The trail of the child starts with the child.
        obtain ⟨below, hbelow⟩ := List.head?_eq_some_iff.mp (ParseNode.head?_of_trail? htrail)
        rw [hname, List.cons_append, hbelow, List.isChain_cons_cons, inTagName_eq_true_iff]
        tauto

theorem Task.exists_of_trail {root : ParseNode} {path : List Nat} {above : List ParseNode}
    {n : ParseNode} (h : root.trail? path = some (above ++ [n])) :
    ∃ u, (Task.root root).at? path = some u ∧ u.node = n ∧ u.context = Rules.surroundings above ∧
      (u.inName = true ↔ ¬ (above ++ [n]).IsChain fun a b => ¬ NamesTag a b) := by
  obtain ⟨u, hu⟩ := Task.exists_at? (t := Task.root root) h
  obtain ⟨above', htrail, hcontext, hname⟩ := Task.trail_of_at? hu
  have hlist : above ++ [n] = above' ++ [u.node] := Option.some.inj (h.symm.trans htrail)
  obtain ⟨rfl, hnode⟩ := List.append_inj' hlist rfl
  obtain rfl : n = u.node := (List.cons.inj hnode).1
  refine ⟨u, hu, rfl, hcontext.trans (Rules.foldl_inside above), hname.trans ?_⟩
  simp [Task.root]

/-- An identifier outside the names of tags can be read. -/
def Legible (source : Bytes) (above : List ParseNode) (n : ParseNode) : Prop :=
  ((above ++ [n]).IsChain fun a b => ¬ NamesTag a b) → n.children = [] →
    (identifierKind? n.type).isSome = true → ∃ text, Rules.textOf source n = .ok text

theorem exists_makeNode_iff {inName : Bool} {n : ParseNode} :
    (∃ m, makeNode source inName n = .ok m) ↔
      (inName = false → n.children = [] → (identifierKind? n.type).isSome = true →
        ∃ text, Rules.textOf source n = .ok text) := by
  have hkind : (kindOf inName n).isRedactable = true ↔
      n.children = [] ∧ (identifierKind? n.type).isSome = true ∧ inName = false := by
    rw [isRedactable_kindOf]
    simp [and_assoc]
  rw [makeNode_eq]
  split
  next hr =>
    obtain ⟨hleaf, hsome, hname⟩ := hkind.mp hr
    simp only [map_eq_ok_iff]
    constructor
    · rintro ⟨m, text, htext, -⟩ - - -
      exact ⟨text, htext⟩
    · intro h
      obtain ⟨text, htext⟩ := h hname hleaf hsome
      exact ⟨_, text, htext, rfl⟩
  next hr =>
    exact ⟨fun _ hname hleaf hsome => absurd (hkind.mpr ⟨hleaf, hsome, hname⟩) hr,
      fun _ => ⟨_, rfl⟩⟩

theorem exists_visit_iff {above : List ParseNode} {n : ParseNode} {inName : Bool}
    (hname : inName = true ↔ ¬ (above ++ [n]).IsChain fun a b => ¬ NamesTag a b) :
    (∃ m, visit source profile inName (Rules.surroundings above) n = .ok m) ↔
      Rules.Regular source profile n ∧ Legible source above n ∧ ¬ Rules.Misplaced above n := by
  have hfalse : inName = false ↔ (above ++ [n]).IsChain fun a b => ¬ NamesTag a b := by
    rw [← Bool.not_eq_true, hname, not_not]
  simp only [visit_eq_ok_iff, exists_and_left, exists_makeNode_iff, Rules.checkNode_eq_ok_iff_regular,
    hfalse, ← Rules.checkJump_ne_ok_iff, not_not]
  rw [Legible]
  tauto

theorem exists_convert_iff_placed {root : ParseNode} :
    (∃ node, convert source profile root = .ok node) ↔
      ∀ path above n, root.trail? path = some (above ++ [n]) →
        Rules.Regular source profile n ∧ Legible source above n ∧ ¬ Rules.Misplaced above n := by
  rw [exists_convert_iff]
  constructor
  · intro h path above n htrail
    obtain ⟨u, hu, rfl, hcontext, hname⟩ := Task.exists_of_trail htrail
    rw [← exists_visit_iff hname, ← hcontext]
    exact h u (Task.mem_all_iff.mpr ⟨path, hu⟩)
  · intro h u hu
    obtain ⟨path, hpath⟩ := Task.mem_all_iff.mp hu
    obtain ⟨above, htrail, hcontext, hname⟩ := Task.trail_of_at? hpath
    rw [show u.context = Rules.surroundings above from hcontext.trans (Rules.foldl_inside above)]
    exact (exists_visit_iff (hname.trans (by simp [Task.root]))).mpr (h path above u.node htrail)

end Convert

open Pseudonym.Convert (Task Legible)

/-- The rule for jumps sees the nodes above, although it is given four flags only. -/
theorem Parser.jumps_of_tree {parser : Parser} {profile : Profile} {text : String}
    {root : ParseNode} (hroot : parser profile text = .ok root) :
    (∀ path above n, root.trail? path = some (above ++ [n]) →
      ∃ u ∈ (Task.root root).all, (Task.root root).at? path = some u ∧ u.node = n ∧
        (Rules.checkJump u.context n ≠ .ok () ↔ Rules.Misplaced above n)) ∧
    ((∃ tree, parser.tree profile text = .ok tree) ↔
      ∀ path above n, root.trail? path = some (above ++ [n]) →
        Rules.Regular (encode text) profile n ∧ Legible (encode text) above n ∧
          ¬ Rules.Misplaced above n) := by
  constructor
  · intro path above n htrail
    obtain ⟨u, hu, hnode, hcontext, -⟩ := Task.exists_of_trail htrail
    refine ⟨u, Task.mem_all_iff.mpr ⟨path, hu⟩, hu, hnode, ?_⟩
    rw [hcontext, Rules.checkJump_ne_ok_iff]
  · rw [← Convert.exists_convert_iff_placed]
    exact Parser.exists_tree_iff hroot

def escaping : ParseNode :=
  let leaf (type : String) (start stop : Nat) : ParseNode :=
    .mk type start stop 0 start true false none []
  let node (type : String) (start stop : Nat) (children : List ParseNode) : ParseNode :=
    .mk type start stop 0 start true false none children
  node "program" 0 29 [node "for_statement" 0 29
    [leaf "for" 0 3, leaf "(" 3 4, leaf ";" 4 5, leaf ";" 5 6, leaf ")" 6 7,
      node "statement_block" 7 29
        [leaf "\x7b" 7 8,
          node "expression_statement" 8 20
            [node "arrow_function" 8 19
              [node "formal_parameters" 8 10 [leaf "(" 8 9, leaf ")" 9 10], leaf "=>" 10 12,
                node "statement_block" 12 19
                  [leaf "\x7b" 12 13, node "break_statement" 13 18 [leaf "break" 13 18],
                    leaf "\x7d" 18 19]],
              leaf ";" 19 20],
          node "continue_statement" 20 28 [leaf "continue" 20 28], leaf "\x7d" 28 29]]]

/-- The loop is around both jumps, but only one of them can leave it. -/
theorem jumps_escaping :
    (∃ above n, escaping.trail? [0, 5, 1, 0, 2, 1] = some (above ++ [n]) ∧
      (∃ a ∈ above, a.type ∈ Rules.loopTypes) ∧ Rules.Misplaced above n) ∧
    (∃ above n, escaping.trail? [0, 5, 2] = some (above ++ [n]) ∧
      n.type = "continue_statement" ∧ ¬ Rules.Misplaced above n) ∧
    ¬ ∃ tree, Parser.tree (fun _ _ => .ok escaping) { name := "script" }
      "for(;;)\x7b()=>\x7bbreak\x7d;continue\x7d" = .ok tree := by
  let trail (path : List Nat) : List ParseNode := (escaping.trail? path).getD []
  have hbreak : escaping.trail? [0, 5, 1, 0, 2, 1] =
      some ((trail [0, 5, 1, 0, 2, 1]).dropLast ++ [(trail [0, 5, 1, 0, 2, 1]).getLast (by decide)]) :=
    rfl
  have hmisplaced : Rules.Misplaced (trail [0, 5, 1, 0, 2, 1]).dropLast
      ((trail [0, 5, 1, 0, 2, 1]).getLast (by decide)) :=
    .ofBreak rfl (by decide) (by decide)
  have hparts := @Parser.jumps_of_tree (fun _ _ => .ok escaping) { name := "script" }
    "for(;;)\x7b()=>\x7bbreak\x7d;continue\x7d" escaping rfl
  refine ⟨⟨_, _, hbreak, by decide, hmisplaced⟩, ?_, fun htree => ?_⟩
  · refine ⟨(trail [0, 5, 2]).dropLast, (trail [0, 5, 2]).getLast (by decide), rfl, rfl, ?_⟩
    rw [← Rules.checkJump_ne_ok_iff, not_not]
    rfl
  · exact (hparts.2.mp htree _ _ _ hbreak).2.2 hmisplaced

end Pseudonym
