import Pseudonym.Proofs.Tree.Printing

namespace Pseudonym

namespace Text

/-- The characters from a place on, and the same characters with the spans behind that place written
anew. -/
inductive Rewrites : Nat → List (Span × String) → List Char → List Char → Prop
  | rest (cursor : Nat) (kept : List Char) : Rewrites cursor [] kept kept
  | edit (cursor : Nat) (s : Span) (new : String) (edits : List (Span × String))
      (kept old cs ds : List Char) (start_eq : cursor + (encodeChars kept).length = s.start)
      (stop_eq : s.start + (encodeChars old).length = s.stop) (behind : Rewrites s.stop edits cs ds) :
      Rewrites cursor ((s, new) :: edits) (kept ++ old ++ cs) (kept ++ new.toList ++ ds)

theorem Rewrites.splice_eq {cursor : Nat} {edits : List (Span × String)} {cs ds : List Char}
    (h : Rewrites cursor edits cs ds) (before : Bytes) (hcursor : before.length = cursor) :
    splice (before ++ encodeChars cs) cursor (edits.map fun e => (e.1, encode e.2)) =
      encodeChars ds := by
  induction h generalizing before with
  | rest cursor kept => rw [← hcursor]; exact List.drop_left
  | edit cursor s new edits kept old cs ds start_eq stop_eq _ ih =>
      have hstart : s.start = (before ++ encodeChars kept).length := by
        rw [List.length_append]
        omega
      have hbehind := ih (before ++ encodeChars kept ++ encodeChars old) (by
        rw [List.length_append, ← hstart, stop_eq])
      have hsource : before ++ encodeChars (kept ++ old ++ cs) =
          before ++ encodeChars kept ++ (encodeChars old ++ encodeChars cs) := by
        simp only [encodeChars_append, List.append_assoc]
      have hkept : slice (before ++ encodeChars (kept ++ old ++ cs)) cursor s.start =
          encodeChars kept := by
        rw [hsource, hstart, ← hcursor, slice_middle]
      rw [List.map_cons, splice, hkept, hsource, ← List.append_assoc, hbehind, encodeChars_append,
        encodeChars_append, encode]

/-- A boundary behind some characters splits those that follow. -/
theorem IsBoundary.exists_append {text : String} {i : Nat} (h : IsBoundary text i)
    (before cs : List Char) (htext : text.toList = before ++ cs)
    (hle : (encodeChars before).length ≤ i) :
    ∃ mid rest, cs = mid ++ rest ∧ (encodeChars before).length + (encodeChars mid).length = i := by
  obtain ⟨k, -, hk⟩ := h
  rw [htext, List.take_append, encodeChars_append, List.length_append] at hk
  refine ⟨cs.take (k - before.length), cs.drop (k - before.length),
    (List.take_append_drop _ cs).symm, ?_⟩
  by_cases hkb : before.length ≤ k
  · rw [← hk, List.take_of_length_le hkb]
  · -- The boundary is not before the end of `before`, and not behind it either.
    have hzero : k - before.length = 0 := by omega
    have hsplit : (encodeChars before).length =
        (encodeChars (before.take k)).length + (encodeChars (before.drop k)).length := by
      rw [← List.length_append, ← encodeChars_append, List.take_append_drop]
    have hnil : (encodeChars []).length = 0 := rfl
    rw [hzero, List.take_zero] at hk ⊢
    omega

theorem exists_rewrites {text : String} {length : Nat} (edits : List (Span × String))
    (horder : Span.InOrder length (edits.map (·.1))) (hbound : OnBoundaries text (edits.map (·.1)))
    (before cs : List Char) (htext : text.toList = before ++ cs)
    (hcursor : ∀ e ∈ edits, (encodeChars before).length ≤ e.1.start) :
    ∃ ds, Rewrites (encodeChars before).length edits cs ds := by
  induction edits generalizing before cs with
  | nil => exact ⟨cs, .rest _ cs⟩
  | cons e edits ih =>
      obtain ⟨s, new⟩ := e
      obtain ⟨hstart, hstop⟩ := hbound s List.mem_cons_self
      obtain ⟨kept, rest, rfl, hkept⟩ :=
        hstart.exists_append before cs htext (hcursor _ List.mem_cons_self)
      have hlength : (encodeChars (before ++ kept)).length = s.start := by
        rw [encodeChars_append, List.length_append, hkept]
      rw [← List.append_assoc] at htext
      obtain ⟨old, cs, rfl, hold⟩ := hstop.exists_append (before ++ kept) rest htext (by
        rw [hlength]
        exact (horder.bounds s List.mem_cons_self).1)
      rw [hlength] at hold
      have hlength' : (encodeChars (before ++ kept ++ old)).length = s.stop := by
        rw [encodeChars_append, List.length_append, hlength, hold]
      obtain ⟨ds, hds⟩ := ih horder.tail (fun t ht => hbound t (List.mem_cons_of_mem s ht))
        (before ++ kept ++ old) cs (htext.trans (List.append_assoc _ old cs).symm) (by
          intro e he
          rw [hlength']
          exact horder.le_start _ (List.mem_map_of_mem he))
      rw [hlength'] at hds
      rw [← List.append_assoc]
      exact ⟨_, .edit _ s new edits kept old cs ds hkept hold hds⟩

/-- Edits of a text that lie between characters, one after another, and the bytes they give. -/
theorem splice_eq_encode_iff {text out : String} {length : Nat} {edits : List (Span × String)}
    (horder : Span.InOrder length (edits.map (·.1)))
    (hbound : OnBoundaries text (edits.map (·.1))) :
    splice (encode text) 0 (edits.map fun e => (e.1, encode e.2)) = encode out ↔
      Rewrites 0 edits text.toList out.toList := by
  constructor
  · intro h
    obtain ⟨ds, hds⟩ := exists_rewrites edits horder hbound [] text.toList rfl
      fun _ _ => Nat.zero_le _
    have hout : encode out = encode (String.ofList ds) := by
      rw [← h, encode, encode, String.toList_ofList]
      exact hds.splice_eq [] rfl
    rw [encode_injective hout, String.toList_ofList]
    exact hds
  · intro h
    exact h.splice_eq [] rfl

end Text

open Text Traversal

namespace Node

/-- What is written in the place of a leaf that has a name. -/
def edit? (n : Node) : Option (Span × String) :=
  n.usedName?.map fun name => (n.span, n.sigil ++ name)

theorem spans_edits_sublist (ns : List Node) :
    ((ns.filterMap edit?).map (·.1)).Sublist (ns.map span) := by
  induction ns with
  | nil => exact .slnil
  | cons n ns ih =>
      cases hn : n.usedName? with
      | none =>
          rw [List.filterMap_cons_none (by rw [edit?, hn]; rfl)]
          exact ih.cons n.span
      | some name =>
          rw [List.filterMap_cons_some (by rw [edit?, hn]; rfl)]
          exact ih.cons_cons n.span

end Node

namespace Tree

section

variable {t : Tree} {text : String}
  (horder : Span.InOrder t.source.length (t.root.leaves.map Node.span))
  (hnames : ∀ m ∈ t.root.leaves, m.isRedactable = true → m.name = .null ∨ ∃ x, m.name = .text x)

include horder hnames

theorem print_eq_ok_iff_splice {out : String} :
    t.print = .ok out ↔
      splice t.source 0 ((t.root.leaves.filterMap Node.edit?).map fun e => (e.1, encode e.2)) =
        encode out := by
  have hwritten : (t.root.leaves.map fun m => (m.span, m.written t.source)) =
      t.root.leaves.map fun m => (m.span, (m.usedName?.map fun name => encode (m.sigil ++ name)).getD
        (slice t.source m.span.start m.span.stop)) := by
    apply List.map_congr_left
    intro m hm
    rw [Node.written_eq t.source m (hnames m hm)]
    cases m.usedName? <;> rfl
  have hedits : (t.root.leaves.filterMap fun m =>
      (m.usedName?.map fun name => encode (m.sigil ++ name)).map fun piece => (m.span, piece)) =
      (t.root.leaves.filterMap Node.edit?).map fun e => (e.1, encode e.2) := by
    rw [List.map_filterMap]
    apply List.filterMap_congr
    intro m _
    rw [Node.edit?, Option.map_map, Option.map_map]
    rfl
  rw [print_eq_splice t _ horder,
    List.findSome?_eq_none_iff.mpr fun m hm => m.fault?_eq_none (hnames m hm), mapError_eq_ok_iff,
    decode_eq_ok_iff, hwritten, splice_filterMap t.source Node.span _ t.root.leaves horder 0
      fun m _ => Nat.zero_le _, hedits]

theorem print_eq_ok_iff_rewrites (hsource : t.source = encode text)
    (hbound : OnBoundaries text (t.root.leaves.map Node.span)) {out : String} :
    t.print = .ok out ↔
      Rewrites 0 (t.root.leaves.filterMap Node.edit?) text.toList out.toList := by
  have hspans := Node.spans_edits_sublist t.root.leaves
  rw [print_eq_ok_iff_splice horder hnames, hsource]
  exact splice_eq_encode_iff (horder.sublist hspans) fun s hs => hbound s (hspans.subset hs)

end

/-- A tree whose leaves lie between characters, one after another, is printed as its text with the
named leaves written anew. What the tree has above its leaves does not matter. -/
theorem print_rewrites (t : Tree) (text : String) (hsource : t.source = encode text)
    (horder : Span.InOrder t.source.length (t.root.leaves.map Node.span))
    (hbound : OnBoundaries text (t.root.leaves.map Node.span))
    (hnames : ∀ m ∈ t.root.leaves, m.isRedactable = true →
      m.name = .null ∨ ∃ x, m.name = .text x) :
    (∃ out, t.print = .ok out) ∧
    (∀ out, t.print = .ok out ↔
      Rewrites 0 (t.root.leaves.filterMap Node.edit?) text.toList out.toList) ∧
    ∀ root, root.leaves = t.root.leaves → print ⟨root, t.source⟩ = t.print := by
  have hiff : ∀ out, t.print = .ok out ↔
      Rewrites 0 (t.root.leaves.filterMap Node.edit?) text.toList out.toList :=
    fun _ => print_eq_ok_iff_rewrites horder hnames hsource hbound
  have hspans := Node.spans_edits_sublist t.root.leaves
  refine ⟨?_, hiff, ?_⟩
  · obtain ⟨out, hout⟩ := exists_rewrites (t.root.leaves.filterMap Node.edit?) (horder.sublist hspans)
      (fun s hs => hbound s (hspans.subset hs)) [] text.toList rfl fun _ _ => Nat.zero_le _
    refine ⟨String.ofList out, (hiff _).mpr ?_⟩
    rw [String.toList_ofList]
    exact hout
  · intro root hroot
    rw [print_eq_leaves, print_eq_leaves, hroot]

/-- Leaves side by side, one of them of no width, below a node with a name and a span of its own. -/
def motley : Tree where
  root := .mk .identifier "program" 7 3 (.text "q") ""
    [.mk .identifier "identifier" 0 2 (.text "ab") "" [], .mk .token "." 2 3 (.text "q") "" [],
      .mk .privateProperty "private_property_identifier" 3 5 (.text "ö") "#" [],
      .mk .identifier "identifier" 5 5 .null "" [], .mk .token "=" 5 6 .null "" [],
      .mk .identifier "identifier" 6 9 (.text "") "" [],
      .mk .identifier "identifier" 9 10 (.text "zz") "" []]
  source := encode "é.#x=日y"

theorem print_rewrites_motley :
    motley.print = .ok "ab.#ö=日zz" ∧
      Rewrites 0 [(⟨0, 2⟩, "ab"), (⟨3, 5⟩, "#ö"), (⟨9, 10⟩, "zz")] "é.#x=日y".toList
        "ab.#ö=日zz".toList := by
  have hprint : motley.print = .ok "ab.#ö=日zz" := by
    rw [print_eq_leaves]
    rfl
  have hnames : ∀ m ∈ motley.root.leaves, m.isRedactable = true →
      m.name = .null ∨ ∃ x, m.name = .text x := by
    change ∀ m ∈ motley.root.children, _
    simp [motley, Node.children, Node.name]
  obtain ⟨-, hiff, -⟩ := print_rewrites motley "é.#x=日y" rfl ⟨by decide, by decide⟩ (by decide) hnames
  exact ⟨hprint, (hiff _).mp hprint⟩

end Tree

end Pseudonym
