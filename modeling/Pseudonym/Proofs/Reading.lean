import Pseudonym.Proofs.Tree.Walking

namespace Pseudonym

open Text Traversal

variable {σ : Type}

/-- A text that a parser takes under a profile: the tree that the parser gives, whose leaves lie one
after another, and the tree that is made of it. -/
structure Reading (parser : Parser) (profile : Profile) where
  text : String
  root : ParseNode
  node : Node
  parsed : parser profile text = .ok root
  converted : Convert.convert (encode text) profile root = .ok node
  inOrder : Span.InOrder (encode text).length (root.leaves.map ParseNode.span)

namespace Reading

variable {parser : Parser} {profile : Profile} (x : Reading parser profile)

def source : Bytes := encode x.text

def spans : List Span := x.root.leaves.map ParseNode.span

/-- The names of the leaves that can be renamed, in document order. -/
def names : List String := x.node.leaves.filterMap Node.usedName?

/-- The leaves with what is written in their place. -/
def edits (r : Registry) : List (Span × Bytes) :=
  x.node.leaves.map fun m => (m.span, m.writtenAs x.source (m.newName? r))

/-- What becomes of an empty registry that has to resolve the names. -/
def resolve (supply : Supply σ) (state : σ) : Option Error × Registry × σ :=
  Registry.substituteAll {} supply state x.names

theorem exists_find?_of_resolve {supply : Supply σ} {state next : σ} {r : Registry}
    (h : x.resolve supply state = (none, r, next)) :
    ∀ name ∈ x.names, ∃ s, r.find? name = some s := by
  rw [resolve] at h
  have hfound := @Registry.exists_find?_of_substituteAll _ {} supply state x.names
  rw [h] at hfound
  exact hfound rfl

/-- The names that a registry has for those of a text can be written. Nothing is written for the
empty name. -/
def Writable (writable : String → Bool) (r : Registry) : Prop :=
  ∀ name ∈ x.names, ∀ s, r.find? name = some s → s = "" ∨ writable s = true

theorem forall_of_resolve {supply : Supply σ} {P : String × String → Prop}
    (hdraw : ∀ name ∈ x.names, ∀ state s, (supply.draw state).1 = .ok s → P (name, s))
    {state next : σ} {failure : Option Error} {r : Registry}
    (h : x.resolve supply state = (failure, r, next)) : ∀ p ∈ r.pairs, P p := by
  rw [resolve] at h
  have hall := Registry.forall_substituteAll hdraw {} state fun p hp => absurd hp List.not_mem_nil
  rw [h] at hall
  exact hall

theorem map_fst_edits (r : Registry) : (x.edits r).map (·.1) = x.spans := by
  rw [edits, List.map_map]
  exact Convert.map_span_leaves x.converted

theorem inOrder_edits (r : Registry) : Span.InOrder x.source.length ((x.edits r).map (·.1)) := by
  rw [map_fst_edits]
  exact x.inOrder

theorem span_mem_spans {m : Node} (hm : m ∈ x.node.leaves) : m.span ∈ x.spans := by
  rw [spans, ← Convert.map_span_leaves x.converted]
  exact List.mem_map_of_mem hm

theorem exists_made {m : Node} (hm : m ∈ x.node.preorder) :
    ∃ t ∈ (Convert.Task.root x.root).all, Convert.Made x.source profile t m :=
  forall₂_exists_left (Convert.forall₂_made x.converted) hm

/-- What a walk replaces is what the printer writes: leaves. -/
theorem usedNames_eq : x.node.usedNames = x.names := by
  rw [Node.usedNames, names, Node.leaves, List.filterMap_filter]
  apply List.filterMap_congr
  intro m hm
  obtain ⟨t, -, hmade⟩ := x.exists_made hm
  rw [eq_comm, ite_eq_left_iff, Bool.not_eq_true]
  intro hleaf
  have hr : m.isRedactable = false := by
    rw [hmade.isRedactable_eq, hleaf]
    rfl
  exact (Node.usedName?_of_not_isRedactable hr).symm

theorem tree_eq : parser.tree profile x.text = .ok ⟨x.node, x.source⟩ :=
  Parser.tree_eq_ok_iff.mpr ⟨x.root, x.node, x.parsed, x.converted, rfl⟩

theorem walk_follows (supply : Supply σ) (state : σ) :
    Progress.Follows supply { registry := {}, state } x.names
      (x.node.walk supply { registry := {}, state }).2 := by
  rw [← x.usedNames_eq]
  exact (Node.walk_follows supply).1 x.node _ rfl

theorem rename_state (supply : Supply σ) (state : σ) :
    (Redactor.rename supply parser profile x.text state).state = (x.resolve supply state).2.2 := by
  have hresolved := congrArg (·.2.2) (x.walk_follows supply state).resolved
  rw [Redactor.rename, x.tree_eq]
  simp only [Tree.walk]
  split <;> exact hresolved

theorem rename_result (supply : Supply σ) (state : σ) :
    (Redactor.rename supply parser profile x.text state).result =
      match x.resolve supply state with
      | (some e, _, _) => .error e
      | (none, r, _) => (Tree.print ⟨x.node.renamed r, x.source⟩ supply.writable).map fun code =>
          ⟨code, x.names.length, r⟩ := by
  obtain ⟨hresolved, hcounted⟩ := x.walk_follows supply state
  have hrenamed := (Node.walk_renamed supply).1 x.node { registry := {}, state }
  rw [Redactor.rename, x.tree_eq, resolve, ← hresolved]
  simp only [Tree.walk]
  cases hf : (x.node.walk supply { registry := {}, state }).2.failure with
  | some e => simp only [hf]
  | none =>
      have hnode := hrenamed _ rfl hf List.prefix_rfl
      have hcount := hcounted hf
      rw [Nat.zero_add] at hcount
      simp only [hnode, hcount]

/-- What stands in the way of a leaf is its new name. -/
theorem fault?_renamed (writable : String → Bool) {r : Registry}
    (hfound : ∀ name ∈ x.names, ∃ s, r.find? name = some s) {m : Node} (hm : m ∈ x.node.leaves) :
    (m.renamed r).fault? writable = (m.newName? r).bind (Node.faultOf writable) := by
  cases hnew : m.newName? r with
  | some new => exact Node.fault?_renamed_of_some writable hnew
  | none =>
      obtain ⟨t, -, hmade⟩ := x.exists_made (List.mem_of_mem_filter hm)
      have hused : m.usedName? = none := by
        rw [Option.eq_none_iff_forall_ne_some]
        intro name hname
        obtain ⟨s, hs⟩ := hfound name (List.mem_filterMap.mpr ⟨m, hm, hname⟩)
        rw [Node.newName?, hname, Option.bind_some, hs] at hnew
        cases hnew
      rw [Node.fault?_renamed_of_none writable hnew, hmade.fault?_eq, hused]
      rfl

theorem fault_renamed_eq_none_iff {writable : String → Bool} {r : Registry} :
    (∀ m ∈ x.node.leaves, (m.newName? r).bind (Node.faultOf writable) = none) ↔
      x.Writable writable r := by
  constructor
  · intro h name hname s hs
    obtain ⟨m, hm, hused⟩ := List.mem_filterMap.mp hname
    have hnew := h m hm
    rw [Node.newName?, hused, Option.bind_some, hs, Option.bind_some] at hnew
    exact Node.faultOf_eq_none_iff.mp hnew
  · intro h m hm
    rw [Option.bind_eq_none_iff]
    intro new hnew
    obtain ⟨old, hold, hfind⟩ := Option.bind_eq_some_iff.mp hnew
    exact Node.faultOf_eq_none_iff.mpr (h old (List.mem_filterMap.mpr ⟨m, hm, hold⟩) new hfind)

section

variable {r : Registry} (hfound : ∀ name ∈ x.names, ∃ s, r.find? name = some s)

include hfound

/-- A renamed tree is printed with its leaves in the places that they had. -/
theorem print_renamed_eq_splice (writable : String → Bool) :
    Tree.print ⟨x.node.renamed r, x.source⟩ writable =
      match x.node.leaves.findSome? fun m => (m.newName? r).bind (Node.faultOf writable) with
      | some e => .error e
      | none => (decode (splice x.source 0
          (x.node.leaves.map fun m => (m.span, (m.renamed r).written x.source)))).mapError .decode := by
  have hspans : (x.node.renamed r).leaves.map Node.span = x.spans := by
    rw [Node.leaves_renamed, List.map_map, spans, ← Convert.map_span_leaves x.converted]
    exact List.map_congr_left fun m _ => Node.span_renamed r m
  have horder : Span.InOrder x.source.length ((x.node.renamed r).leaves.map Node.span) := by
    rw [hspans]
    exact x.inOrder
  have hedits : (x.node.renamed r).leaves.map (fun m => (m.span, m.written x.source)) =
      x.node.leaves.map fun m => (m.span, (m.renamed r).written x.source) := by
    rw [Node.leaves_renamed, List.map_map]
    exact List.map_congr_left fun m _ => by rw [Function.comp_apply, Node.span_renamed]
  have hfault : (x.node.renamed r).leaves.findSome? (Node.fault? writable) =
      x.node.leaves.findSome? fun m => (m.newName? r).bind (Node.faultOf writable) := by
    have hmap := congrArg (List.findSome? id)
      (List.map_congr_left fun m hm => x.fault?_renamed writable hfound hm)
    rw [List.findSome?_map, List.findSome?_map] at hmap
    rw [Node.leaves_renamed, List.findSome?_map]
    exact hmap
  rw [← hedits, ← hfault]
  exact Tree.print_eq_splice ⟨x.node.renamed r, x.source⟩ writable horder

theorem print_renamed_eq (writable : String → Bool) (hr : ∀ p ∈ r.pairs, p.2 ≠ "") :
    Tree.print ⟨x.node.renamed r, x.source⟩ writable =
      match x.node.leaves.findSome? fun m => (m.newName? r).bind (Node.faultOf writable) with
      | some e => .error e
      | none => (decode (splice x.source 0 (x.edits r))).mapError .decode := by
  have hedits : x.node.leaves.map (fun m => (m.span, (m.renamed r).written x.source)) =
      x.edits r := by
    refine List.map_congr_left fun m hm => ?_
    obtain ⟨t, -, hmade⟩ := x.exists_made (List.mem_of_mem_filter hm)
    rw [hmade.written_renamed hr]
  rw [x.print_renamed_eq_splice hfound, hedits]

variable {writable : String → Bool}

theorem print_renamed (hw : x.Writable writable r) (hr : ∀ p ∈ r.pairs, p.2 ≠ "") :
    Tree.print ⟨x.node.renamed r, x.source⟩ writable =
      (decode (splice x.source 0 (x.edits r))).mapError .decode := by
  rw [x.print_renamed_eq hfound writable hr,
    List.findSome?_eq_none_iff.mpr (x.fault_renamed_eq_none_iff.mpr hw)]

theorem print_renamed_of_not_writable (hw : ¬ x.Writable writable r) :
    ∃ e, Tree.print ⟨x.node.renamed r, x.source⟩ writable = .error e := by
  rw [← fault_renamed_eq_none_iff, ← List.findSome?_eq_none_iff, ← ne_eq,
    Option.ne_none_iff_exists'] at hw
  obtain ⟨e, he⟩ := hw
  exact ⟨e, by rw [x.print_renamed_eq_splice hfound, he]⟩

/-- With leaves between characters any names that can be written give a text, the empty one too. -/
theorem exists_print_renamed (hw : x.Writable writable r) (hbound : OnBoundaries x.text x.spans) :
    ∃ code, Tree.print ⟨x.node.renamed r, x.source⟩ writable = .ok code := by
  have hspan : ∀ m ∈ x.node.leaves, IsBoundary x.text m.start ∧ IsBoundary x.text m.stop :=
    fun m hm => hbound m.span (x.span_mem_spans hm)
  have htext : IsText (splice x.source 0
      (x.node.leaves.map fun m => (m.span, (m.renamed r).written x.source))) := by
    refine isText_splice _ ?_ ?_ 0 (isBoundary_zero x.text)
    · intro s hs
      rw [List.map_map] at hs
      obtain ⟨m, hm, rfl⟩ := List.mem_map.mp hs
      exact hspan m hm
    · intro e he
      obtain ⟨m, hm, rfl⟩ := List.mem_map.mp he
      rw [Node.written]
      split
      · exact ⟨_, rfl⟩
      · rw [Node.renamed_eq]
        exact (hspan m hm).1.isText_slice (hspan m hm).2
  obtain ⟨code, hcode⟩ := htext
  refine ⟨code, ?_⟩
  rw [x.print_renamed_eq_splice hfound,
    List.findSome?_eq_none_iff.mpr (x.fault_renamed_eq_none_iff.mpr hw), mapError_eq_ok_iff,
    decode_eq_ok_iff, hcode]

end

/-- A text is renamed if its names can be resolved, the new ones can be written and what comes of it
is a text. -/
theorem rename_eq_ok_iff {supply : Supply σ} {state : σ} {done : Redactor.Renamed}
    (hr : ∀ p ∈ done.registry.pairs, p.2 ≠ "") :
    (Redactor.rename supply parser profile x.text state).result = .ok done ↔
      (∃ next, x.resolve supply state = (none, done.registry, next)) ∧
        x.Writable supply.writable done.registry ∧
        encode done.code = splice x.source 0 (x.edits done.registry) ∧
        done.replaced = x.names.length := by
  rw [rename_result]
  rcases hresolve : x.resolve supply state with ⟨failure, r, next⟩
  obtain ⟨code, replaced, registry⟩ := done
  cases failure with
  | some e => simp
  | none =>
      have hfound := x.exists_find?_of_resolve hresolve
      simp only [map_eq_ok_iff, Redactor.Renamed.mk.injEq, Prod.mk.injEq, true_and,
        exists_and_left, exists_eq', and_true]
      constructor
      · rintro ⟨_, hprint, rfl, rfl, rfl⟩
        have hw : x.Writable supply.writable r := by
          by_contra hw
          obtain ⟨e, he⟩ := x.print_renamed_of_not_writable hfound hw
          rw [he] at hprint
          cases hprint
        rw [x.print_renamed hfound hw hr, mapError_eq_ok_iff, decode_eq_ok_iff] at hprint
        exact ⟨rfl, hw, hprint.symm, rfl⟩
      · rintro ⟨rfl, hw, hcode, rfl⟩
        refine ⟨code, ?_, rfl, rfl, rfl⟩
        rw [x.print_renamed hfound hw hr, mapError_eq_ok_iff, decode_eq_ok_iff, hcode]

/-- The tree of an assignment from a name to a private name, by the lengths of two names. -/
def assignment (a b : Nat) : ParseNode :=
  let leaf (type : String) (start length : Nat) : ParseNode :=
    .mk type start (start + length) 0 start true false none []
  .mk "program" 0 (a + b + a + 3) 0 0 true false none
    [leaf "identifier" 0 a, leaf "=" a 1, leaf "identifier" (a + 1) b, leaf "." (a + 1 + b) 1,
      leaf "private_property_identifier" (a + b + 2) (a + 1)]

def assignmentNode (a b : Nat) (first second : String) : Node :=
  .mk .inner "program" 0 (a + b + a + 3) .null ""
    [.mk .identifier "identifier" 0 a (.text first) "" [],
      .mk .token "=" a (a + 1) .null "" [],
      .mk .identifier "identifier" (a + 1) (a + 1 + b) (.text second) "" [],
      .mk .token "." (a + 1 + b) (a + 1 + b + 1) .null "" [],
      .mk .privateProperty "private_property_identifier" (a + b + 2) (a + b + 2 + (a + 1))
        (.text first) "#" []]

def short : Reading (fun _ _ => .ok (assignment 1 1)) { name := "module" } where
  text := "a=b.#a"
  root := assignment 1 1
  node := assignmentNode 1 1 "a" "b"
  parsed := rfl
  converted := by rw [Convert.convert_eq_convertRec]; rfl
  inOrder := ⟨by decide, by decide⟩

def long : Reading (fun _ _ => .ok (assignment 2 5)) { name := "module" } where
  text := "é=sub_1.#é"
  root := assignment 2 5
  node := assignmentNode 2 5 "é" "sub_1"
  parsed := rfl
  converted := by rw [Convert.convert_eq_convertRec]; rfl
  inOrder := ⟨by decide, by decide⟩

end Reading

end Pseudonym
