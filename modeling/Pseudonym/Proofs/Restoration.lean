import Pseudonym.Proofs.Substitution

namespace Pseudonym

open Text Traversal

variable {σ : Type}

namespace Registry

def inverse (r : Registry) : Registry := ⟨r.pairs.map Prod.swap⟩

theorem find?_inverse {r : Registry}
    (hinj : ∀ p ∈ r.pairs, ∀ q ∈ r.pairs, p.2 = q.2 → p.1 = q.1) {name s : String}
    (h : r.find? name = some s) : r.inverse.find? s = some name := by
  have hmem : (name, s) ∈ r.pairs := mem_of_find? h
  cases hfind : r.inverse.find? s with
  | none =>
      have hnone := List.lookup_eq_none_iff.mp hfind (s, name) (List.mem_map_of_mem hmem)
      simp at hnone
  | some other =>
      obtain ⟨p, hp, hswap⟩ := List.mem_map.mp (mem_of_find? hfind)
      obtain ⟨hs, rfl⟩ := Prod.mk.inj hswap
      rw [hinj p hp _ hmem hs]

/-- The substitute of a name leads back to it, also where it stands behind a sigil. -/
def Recovers (r : Registry) (name : String) : Prop :=
  ∃ new, r.find? name = some new ∧ new ≠ "" ∧ new.toList.head? ≠ some '#' ∧
    r.inverse.find? new = some name

end Registry

namespace Convert

theorem splitSigil_of_head? (kind : Kind) {text : String} (h : text.toList.head? ≠ some '#') :
    splitSigil kind text = ("", text) := by
  unfold splitSigil
  split
  next rest htext =>
    rw [htext] at h
    exact absurd rfl h
  next => rfl

theorem splitSigil_append_name (kind : Kind) (text : String) {name : String}
    (h : name.toList.head? ≠ some '#') :
    splitSigil kind ((splitSigil kind text).1 ++ name) = ((splitSigil kind text).1, name) := by
  rw [splitSigil_fst]
  split
  next hsigil =>
    have htext : ("#" ++ name).toList = '#' :: name.toList := by simp
    simp only [hsigil.1, splitSigil, htext, String.ofList_toList]
  next => rw [String.empty_append, splitSigil_of_head? kind h]

end Convert

/-- Names for a number of draws that can be told from each other and do not look like a sigil. -/
structure Supply.Distinguishes (supply : Supply σ) (state : σ) (count : Nat) (g : Nat → String) :
    Prop where
  draw_eq : ∀ i < count, (supply.draw (supply.after state i)).1 = .ok (g i)
  ne_empty : ∀ i < count, g i ≠ ""
  no_sigil : ∀ i < count, (g i).toList.head? ≠ some '#'
  injective : ∀ i < count, ∀ j < count, g i = g j → i = j

theorem Supply.distinguishes_numbered (state count : Nat) :
    numbered.Distinguishes state count fun i => "sub_" ++ toString (state + i + 1) where
  draw_eq i _ := draw_numbered state i
  ne_empty i _ := by simp
  no_sigil i _ := by simp
  injective i _ j _ hij := numbered_injective state hij

theorem Supply.Distinguishes.find?_inverse_drawn {supply : Supply σ} {state : σ} {g : Nat → String}
    {names : List String} (h : supply.Distinguishes state names.length g) {name s : String}
    (hs : (Registry.drawn g names).find? name = some s) :
    (Registry.drawn g names).inverse.find? s = some name := by
  refine Registry.find?_inverse ?_ hs
  intro p hp q hq hpq
  obtain ⟨i, hi, rfl⟩ := List.mem_mapIdx.mp hp
  obtain ⟨j, hj, rfl⟩ := List.mem_mapIdx.mp hq
  obtain rfl := h.injective i hi j hj hpq
  rfl

def Redaction.registry (d : Redaction) : Registry := ⟨d.mapping.getD []⟩

theorem Tree.mem_identifiers_iff {tree : Tree} {n : Node} :
    n ∈ tree.identifiers ↔ n ∈ tree.root.preorder ∧ n.isRedactable = true := by
  rw [identifiers, nodes, Node.nodes_eq_preorder, List.mem_filter]

def Node.SameShape (a b : Node) : Prop :=
  List.Forall₂ (fun m n => m.kind = n.kind ∧ m.type = n.type ∧
    m.children.length = n.children.length) a.preorder b.preorder

theorem Node.SameShape.leaves {a b : Node} (h : a.SameShape b) :
    List.Forall₂ (fun m n => m.kind = n.kind) a.leaves b.leaves := by
  refine (List.rel_filter ?_ h).imp fun m n hmn => hmn.1
  intro m n hmn
  have hleaf : m.isLeaf = n.isLeaf := by
    rw [Bool.eq_iff_iff, isLeaf, isLeaf, List.isEmpty_iff_length_eq_zero,
      List.isEmpty_iff_length_eq_zero, hmn.2.2]
  exact Bool.eq_iff_iff.mp hleaf

/-- A node that is made of an identifier of the source. -/
def Node.ReadFrom (source : Bytes) (n : Node) : Prop :=
  ∃ p text, Rules.textOf source p = .ok text ∧ n = Convert.identifierNode n.kind p text

namespace Reading

variable {parser : Parser} {profile : Profile} (x : Reading parser profile)

/-- A tree of the redacted text: the nodes are the same, the leaves lie where they have come to, and
the identifiers are read there. -/
structure Image (d : Redaction) (tree : Tree) : Prop where
  source_eq : tree.source = encode d.code
  shape : x.node.SameShape tree.root
  spans_eq : tree.root.leaves.map Node.span = moved 0 0 (x.edits d.registry)
  identifiers : ∀ n ∈ tree.identifiers, n.ReadFrom tree.source

structure Replaced (r : Registry) (source : Bytes) (m n : Node) : Prop where
  mem : m ∈ x.node.leaves
  kind_eq : m.kind = n.kind
  slice_eq : slice source n.start n.stop = m.writtenAs x.source (m.newName? r)
  read : n.isRedactable = true → n.ReadFrom source

variable {x} {r : Registry}

namespace Replaced

variable {source : Bytes} {m n : Node}

theorem isRedactable_eq (h : x.Replaced r source m n) : n.isRedactable = m.isRedactable := by
  rw [Node.isRedactable, Node.isRedactable, h.kind_eq]

theorem spelled (h : x.Replaced r source m n) (hr : m.isRedactable = true) :
    ∃ text, encode text = m.writtenAs x.source (m.newName? r) ∧
      n.sigil = (Convert.splitSigil m.kind text).1 ∧
      n.name = if (Convert.splitSigil m.kind text).2.isEmpty then .null
        else .text (Convert.splitSigil m.kind text).2 := by
  obtain ⟨p, text, htext, hn⟩ := h.read (h.isRedactable_eq.trans hr)
  rw [Convert.identifierNode_eq, ← h.kind_eq] at hn
  refine ⟨text, ?_, by rw [hn]; rfl, by rw [hn]; rfl⟩
  have hslice := h.slice_eq
  rw [hn] at hslice
  rw [← hslice]
  exact (Convert.textOf_eq_ok_iff.mp htext).symm

theorem spelled_of_name (h : x.Replaced r source m n) {old new : String}
    (hold : m.usedName? = some old) (hnew : r.find? old = some new) (hne : new ≠ "")
    (hsigil : new.toList.head? ≠ some '#') : n.sigil = m.sigil ∧ n.name = .text new := by
  have hr := Node.isRedactable_of_usedName? hold
  obtain ⟨t, -, hmade⟩ := x.exists_made (List.mem_of_mem_filter h.mem)
  obtain ⟨before, -, hbefore, -⟩ := hmade.identifier hr
  obtain ⟨text, hwritten, hnsigil, hname⟩ := h.spelled hr
  rw [Node.newName?, hold, Option.bind_some, hnew, Node.writtenAs] at hwritten
  obtain rfl := encode_injective hwritten
  rw [hbefore, Convert.splitSigil_append_name _ _ hsigil, ← hbefore] at hnsigil hname
  simp only [String.isEmpty_iff, if_neg hne] at hname
  exact ⟨hnsigil, hname⟩

theorem spelled_of_none (h : x.Replaced r source m n) (hr : m.isRedactable = true)
    (hnone : m.usedName? = none) : n.name = .null := by
  obtain ⟨t, -, hmade⟩ := x.exists_made (List.mem_of_mem_filter h.mem)
  obtain ⟨before, hbefore, -, hvalue⟩ := hmade.identifier hr
  obtain ⟨text, hwritten, -, hname⟩ := h.spelled hr
  rw [Node.newName?, hnone, Option.bind_none, Node.writtenAs, hmade.slice_eq,
    Convert.textOf_eq_ok_iff.mp hbefore] at hwritten
  obtain rfl := encode_injective hwritten
  rw [hname]
  by_cases hempty : (Convert.splitSigil m.kind text).2.isEmpty = true
  · exact if_pos hempty
  · rw [Node.usedName?, if_pos hr, hvalue, if_neg hempty, Registry.usable?, if_neg hempty] at hnone
    cases hnone

/-- With its name put back a leaf is written as it was, and the name that is replaced is known. -/
theorem restored (h : x.Replaced r source m n)
    (hrecovers : ∀ name ∈ x.names, r.Recovers name) :
    (n.renamed r.inverse).written source = slice x.source m.start m.stop ∧
      (n.isRedactable = true → n.name ≠ .null →
        ∃ name old, n.name = .text name ∧ r.inverse.find? name = some old) := by
  have hredactable := h.isRedactable_eq
  cases hused : m.usedName? with
  | some old =>
      have hold := Node.isRedactable_of_usedName? hused
      rw [hold] at hredactable
      obtain ⟨new, hnew, hne, hsigil, hinverse⟩ :=
        hrecovers old (List.mem_filterMap.mpr ⟨m, h.mem, hused⟩)
      obtain ⟨hnsigil, hname⟩ := h.spelled_of_name hused hnew hne hsigil
      have hback : n.newName? r.inverse = some old := by
        rw [Node.newName?, Node.usedName?, if_pos hredactable, hname,
          Registry.usable?_eq_some_iff.mpr ⟨rfl, hne⟩, Option.bind_some, hinverse]
      obtain ⟨t, -, hmade⟩ := x.exists_made (List.mem_of_mem_filter h.mem)
      have hmne : old ≠ "" := by
        rw [Node.usedName?, if_pos hold] at hused
        exact (Registry.usable?_eq_some_iff.mp hused).2
      refine ⟨?_, fun _ _ => ⟨new, old, hname, hinverse⟩⟩
      rw [Node.written_renamed_of_some source hback hmne, hnsigil, hmade.slice_eq]
      exact (Convert.textOf_eq_ok_iff.mp (hmade.textOf_eq hused)).symm
  | none =>
      -- A leaf without a name is copied, there and back.
      have hnull : n.isRedactable = true → n.name = .null :=
        fun hr => h.spelled_of_none (hredactable.symm.trans hr) hused
      have hcopied : n.usedName? = none ∧ n.written source = slice source n.start n.stop := by
        rw [Node.usedName?, Node.written, Node.isNamed]
        cases hr : n.isRedactable with
        | false => exact ⟨rfl, rfl⟩
        | true =>
            rw [hnull hr]
            exact ⟨rfl, rfl⟩
      have hback : n.newName? r.inverse = none := by
        rw [Node.newName?, hcopied.1]
        rfl
      refine ⟨?_, fun hr hname => absurd (hnull hr) hname⟩
      rw [Node.written_renamed_of_none source hback, hcopied.2, h.slice_eq, Node.newName?, hused]
      rfl

end Replaced

namespace Image

variable {d : Redaction} {tree : Tree}

theorem replaced (h : x.Image d tree)
    (hcode : encode d.code = splice x.source 0 (x.edits d.registry)) :
    List.Forall₂ (x.Replaced d.registry tree.source) x.node.leaves tree.root.leaves := by
  have hmoved := slice_moved x.source _ (x.inOrder_edits d.registry) 0 (fun _ _ => Nat.zero_le _) []
  rw [List.length_nil, List.nil_append, ← hcode, ← h.source_eq, ← h.spans_eq, edits, List.map_map,
    List.map_map, map_eq_map_iff] at hmoved
  refine List.Forall₂.mp ?_ (forall₂_mem_left h.shape.leaves) (forall₂_mem_left hmoved).flip
  rintro m n ⟨hm, hkind⟩ ⟨hn, hslice⟩
  exact ⟨hm, hkind, hslice, fun hr =>
    h.identifiers n (Tree.mem_identifiers_iff.mpr ⟨List.mem_of_mem_filter hn, hr⟩)⟩

theorem gaps_eq (h : x.Image d tree)
    (hcode : encode d.code = splice x.source 0 (x.edits d.registry)) :
    gaps tree.source 0 (tree.root.leaves.map Node.span) = gaps x.source 0 x.spans := by
  have hgaps := gaps_moved x.source _ (x.inOrder_edits d.registry) 0 []
  rw [List.length_nil, List.nil_append, ← hcode, ← h.source_eq, ← h.spans_eq, x.map_fst_edits]
    at hgaps
  exact hgaps

theorem inOrder (h : x.Image d tree)
    (hcode : encode d.code = splice x.source 0 (x.edits d.registry)) :
    Span.InOrder tree.source.length (tree.root.leaves.map Node.span) := by
  have horder := inOrder_moved x.source _ (x.inOrder_edits d.registry) 0 0
  rw [Nat.zero_add, ← hcode, ← h.source_eq, ← h.spans_eq] at horder
  exact horder

theorem fault?_renamed (h : x.Image d tree) (r : Registry) {n : Node}
    (hn : n ∈ (tree.root.renamed r).leaves) : n.fault? (fun _ => true) = none := by
  rw [Node.leaves_renamed] at hn
  obtain ⟨m, hm, rfl⟩ := List.mem_map.mp hn
  cases hnew : m.newName? r with
  | some new => exact Node.fault?_eq_none _ fun _ => .inr ⟨new, Node.name_renamed_of_some hnew⟩
  | none =>
      rw [Node.fault?_renamed_of_none _ hnew]
      refine m.fault?_eq_none fun hr => ?_
      obtain ⟨p, text, -, hmade⟩ :=
        h.identifiers m (Tree.mem_identifiers_iff.mpr ⟨List.mem_of_mem_filter hm, hr⟩)
      rw [hmade, Convert.identifierNode_eq]
      exact ite_eq_or_eq _ _ _ |>.imp id fun heq => ⟨_, heq⟩

theorem print_restored (h : x.Image d tree)
    (hcode : encode d.code = splice x.source 0 (x.edits d.registry))
    (hrecovers : ∀ name ∈ x.names, d.registry.Recovers name) :
    Tree.print ⟨tree.root.renamed d.registry.inverse, tree.source⟩ = .ok x.text := by
  have hspans : (tree.root.renamed d.registry.inverse).leaves.map Node.span =
      tree.root.leaves.map Node.span := by
    rw [Node.leaves_renamed, List.map_map]
    exact List.map_congr_left fun n _ => Node.span_renamed _ n
  have hpieces : x.node.leaves.map (fun m => slice x.source m.start m.stop) =
      tree.root.leaves.map fun n => (n.renamed d.registry.inverse).written tree.source := by
    rw [map_eq_map_iff]
    exact (h.replaced hcode).imp fun m n hmn => (hmn.restored hrecovers).1.symm
  have hsplice : splice tree.source 0 ((tree.root.renamed d.registry.inverse).leaves.map
        fun n => (n.span, n.written tree.source)) =
      splice x.source 0 (x.spans.map fun s => (s, slice x.source s.start s.stop)) := by
    apply splice_eq_of_gaps
    · rw [List.map_map, List.map_map]
      change gaps tree.source 0 ((tree.root.renamed d.registry.inverse).leaves.map Node.span) =
        gaps x.source 0 (x.spans.map id)
      rw [hspans, h.gaps_eq hcode, List.map_id]
    · rw [List.map_map, List.map_map, Node.leaves_renamed, List.map_map, spans,
        ← Convert.map_span_leaves x.converted, List.map_map]
      exact hpieces.symm
  have horder := h.inOrder hcode
  rw [← hspans] at horder
  rw [Tree.print_eq_splice ⟨_, tree.source⟩ _ horder,
    List.findSome?_eq_none_iff.mpr fun n hn => h.fault?_renamed _ hn, hsplice,
    splice_unchanged x.source x.spans x.inOrder, mapError_eq_ok_iff, decode_eq_ok_iff]
  rfl

theorem known_name (h : x.Image d tree)
    (hcode : encode d.code = splice x.source 0 (x.edits d.registry))
    (hrecovers : ∀ name ∈ x.names, d.registry.Recovers name) {n : Node} (hn : n ∈ tree.identifiers)
    (hname : n.name ≠ .null) :
    ∃ name old, n.name = .text name ∧ d.registry.inverse.find? name = some old := by
  obtain ⟨hnode, hr⟩ := Tree.mem_identifiers_iff.mp hn
  obtain ⟨p, text, -, hmade⟩ := h.identifiers n hn
  have hleaf : n.isLeaf = true := by
    rw [hmade]
    rfl
  obtain ⟨m, -, hreplaced⟩ :=
    forall₂_exists_left (h.replaced hcode) (List.mem_filter.mpr ⟨hnode, hleaf⟩)
  exact (hreplaced.restored hrecovers).2 hr hname

end Image

theorem recovers_drawn {supply : Supply σ} {state : σ} {g : Nat → String}
    (hg : supply.Distinguishes state x.distinct.length g) :
    ∀ name ∈ x.names, (Registry.drawn g x.distinct).Recovers name := by
  intro name hname
  have hmem : name ∈ x.distinct := List.mem_eraseDups.mpr hname
  have hlt : x.distinct.idxOf name < x.distinct.length := List.idxOf_lt_length_iff.mpr hmem
  have hfind := Registry.find?_drawn g x.distinct hmem
  exact ⟨_, hfind, hg.ne_empty _ hlt, hg.no_sigil _ hlt, hg.find?_inverse_drawn hfind⟩

variable (x)

/-- A redaction can be undone with its mapping: whatever tree the redacted text is read as, if the
leaves are those of the text, the names can all be put back, and what is printed is the text. There is
a redacted text if the names that are drawn can be written. -/
theorem redact_restorable (r : Redactor σ) (request : Request) (state : σ)
    (htext : request.text = .text x.text) (hne : x.text ≠ "")
    (hprofile : (r.resolver.resolve request.hint).1 = .ok profile)
    (hmapping : request.includeMapping.getD r.includeMapping = true)
    (hbound : OnBoundaries x.text x.spans) (g : Nat → String)
    (hg : r.supply.Distinguishes state x.distinct.length g) :
    ((∃ d, (r.redact parser request state).result = .ok d) ↔
      ∀ i < x.distinct.length, r.supply.writable (g i) = true) ∧
    ∀ d, (r.redact parser request state).result = .ok d →
      d.mapping = some (x.distinct.mapIdx fun i name => (name, g i)) ∧
      encode d.code = splice x.source 0 (x.edits d.registry) ∧
      ∀ tree, x.Image d tree →
        Tree.print ⟨tree.root.renamed d.registry.inverse, tree.source⟩ = .ok x.text ∧
        ∀ n ∈ tree.identifiers, n.name ≠ .null →
          ∃ name old, n.name = .text name ∧ d.registry.inverse.find? name = some old := by
  have husable : Registry.usable? request.text = some x.text :=
    Registry.usable?_eq_some_iff.mpr ⟨htext, hne⟩
  by_cases hw : ∀ i < x.distinct.length, r.supply.writable (g i) = true
  · obtain ⟨code, hdone⟩ := x.rename_eq_drawn hbound r.supply state g hg.draw_eq
      fun i hi => .inr (hw i hi)
    have hcode : encode code = splice x.source 0 (x.edits (.drawn g x.distinct)) :=
      ((x.rename_eq_ok_iff (Registry.forall_mem_drawn (P := (· ≠ "")) _ hg.ne_empty)).mp hdone).2.2.1
    have hredact := r.redact_of_rename husable hprofile hdone
    rw [hmapping, if_pos rfl] at hredact
    refine ⟨⟨fun _ => hw, fun _ => ⟨_, hredact⟩⟩, fun d hd => ?_⟩
    obtain rfl := Except.ok.inj (hredact.symm.trans hd)
    refine ⟨rfl, hcode, fun tree himage => ⟨?_, fun n hn hname => ?_⟩⟩
    · exact himage.print_restored hcode (recovers_drawn hg)
    · exact himage.known_name hcode (recovers_drawn hg) hn hname
  · have hspoilt := hw
    simp only [not_forall, Bool.not_eq_true] at hspoilt
    obtain ⟨i, hi, hfalse⟩ := hspoilt
    obtain ⟨e, he⟩ := x.rename_eq_error r.supply state g hg.draw_eq ⟨i, hi, hg.ne_empty i hi, hfalse⟩
    have hresult := r.redact_of_rename_error husable hprofile he
    refine ⟨⟨fun ⟨d, hd⟩ => ?_, fun h => absurd h hw⟩, fun d hd => ?_⟩
    · cases hresult.symm.trans hd
    · cases hresult.symm.trans hd

theorem image_long {d : Redaction} (hcode : d.code = "sub_1=sub_2.#sub_1")
    (hmapping : d.mapping = some [("é", "sub_1"), ("sub_1", "sub_2")]) :
    long.Image d ⟨assignmentNode 5 5 "sub_1" "sub_2", encode d.code⟩ where
  source_eq := rfl
  shape := .cons ⟨rfl, rfl, rfl⟩ (.cons ⟨rfl, rfl, rfl⟩ (.cons ⟨rfl, rfl, rfl⟩
    (.cons ⟨rfl, rfl, rfl⟩ (.cons ⟨rfl, rfl, rfl⟩ (.cons ⟨rfl, rfl, rfl⟩ .nil)))))
  spans_eq := by
    rw [Redaction.registry, hmapping]
    rfl
  identifiers := by
    intro n hn
    rw [hcode]
    have hfilter := List.mem_filter.mpr (Tree.mem_identifiers_iff.mp hn)
    obtain _ | ⟨_, _ | ⟨_, _ | ⟨_, hnil⟩⟩⟩ := hfilter
    · exact ⟨.mk "identifier" 0 5 0 0 true false none [], "sub_1", rfl, rfl⟩
    · exact ⟨.mk "identifier" 6 11 0 6 true false none [], "sub_2", rfl, rfl⟩
    · exact ⟨.mk "private_property_identifier" 12 18 0 12 true false none [], "#sub_1", rfl, rfl⟩
    · cases hnil

/-- The substitute of the first name is the second name. -/
theorem restorable_long :
    ∃ d, (numberedRedactor.redact (fun _ _ => .ok (assignment 2 5))
        ⟨.text "é=sub_1.#é", .null, some true⟩ 0).result = .ok d ∧
      d.code = "sub_1=sub_2.#sub_1" ∧
      long.Image d ⟨assignmentNode 5 5 "sub_1" "sub_2", encode d.code⟩ ∧
      Tree.print ⟨(assignmentNode 5 5 "sub_1" "sub_2").renamed d.registry.inverse,
        encode d.code⟩ = .ok "é=sub_1.#é" := by
  obtain ⟨hdone, hrestorable⟩ := redact_restorable long numberedRedactor
    ⟨.text "é=sub_1.#é", .null, some true⟩ 0 rfl (by decide) rfl rfl (by decide) _
    (Supply.distinguishes_numbered 0 _)
  obtain ⟨d, hresult⟩ := hdone.mpr fun _ _ => rfl
  obtain ⟨hmapping, hcode, hrestored⟩ := hrestorable d hresult
  have hd : d.code = "sub_1=sub_2.#sub_1" := by
    apply encode_injective
    rw [hcode, Redaction.registry, hmapping]
    decide
  have himage := image_long hd hmapping
  exact ⟨d, hresult, hd, himage, (hrestored _ himage).1⟩

end Reading

end Pseudonym
