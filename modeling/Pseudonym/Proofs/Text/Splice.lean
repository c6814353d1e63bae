import Pseudonym.Proofs.Text.Utf8

namespace Pseudonym

/-- The bytes from `start` up to `stop`. -/
structure Span where
  start : Nat
  stop : Nat
  deriving DecidableEq, Repr

namespace Span

/-- Spans within a number of bytes, one after another. -/
structure InOrder (length : Nat) (spans : List Span) : Prop where
  bounds : ∀ s ∈ spans, s.start ≤ s.stop ∧ s.stop ≤ length
  apart : spans.Pairwise fun s t => s.stop ≤ t.start

theorem InOrder.tail {length : Nat} {s : Span} {spans : List Span}
    (h : InOrder length (s :: spans)) : InOrder length spans :=
  ⟨fun t ht => h.bounds t (List.mem_cons_of_mem s ht), (List.pairwise_cons.mp h.apart).2⟩

theorem InOrder.sublist {length : Nat} {spans spans' : List Span} (h : InOrder length spans)
    (hsub : spans'.Sublist spans) : InOrder length spans' :=
  ⟨fun s hs => h.bounds s (hsub.subset hs), h.apart.sublist hsub⟩

theorem InOrder.le_start {length : Nat} {s : Span} {spans : List Span}
    (h : InOrder length (s :: spans)) : ∀ t ∈ spans, s.stop ≤ t.start :=
  (List.pairwise_cons.mp h.apart).1

end Span

namespace Text

/-- A place between two characters, or at an end. -/
def IsBoundary (text : String) (i : Nat) : Prop :=
  ∃ k, k ≤ text.length ∧ (encodeChars (text.toList.take k)).length = i

instance (text : String) (i : Nat) : Decidable (IsBoundary text i) :=
  inferInstanceAs (Decidable (∃ k, k ≤ text.length ∧ _))

def OnBoundaries (text : String) (spans : List Span) : Prop :=
  ∀ s ∈ spans, IsBoundary text s.start ∧ IsBoundary text s.stop

instance (text : String) (spans : List Span) : Decidable (OnBoundaries text spans) :=
  inferInstanceAs (Decidable (∀ s ∈ spans, _))

/-- The bytes in front of, between and behind spans. -/
def gaps (source : Bytes) (cursor : Nat) : List Span → List Bytes
  | [] => [source.drop cursor]
  | s :: spans => slice source cursor s.start :: gaps source s.stop spans

/-- The source from a place on, with each span replaced by other bytes. -/
def splice (source : Bytes) (cursor : Nat) : List (Span × Bytes) → Bytes
  | [] => source.drop cursor
  | (s, piece) :: edits => slice source cursor s.start ++ piece ++ splice source s.stop edits

/-- Where the new bytes lie after a splice. What was at `cursor` has come to `place`. -/
def moved (cursor place : Nat) : List (Span × Bytes) → List Span
  | [] => []
  | (s, piece) :: edits =>
      let start := place + (s.start - cursor)
      ⟨start, start + piece.length⟩ :: moved s.stop (start + piece.length) edits

theorem length_slice {source : Bytes} {a b : Nat} (hb : b ≤ source.length) :
    (slice source a b).length = b - a := by
  simp only [slice, List.length_take, List.length_drop]
  omega

theorem slice_append_drop (source : Bytes) {a b : Nat} (h : a ≤ b) :
    slice source a b ++ source.drop b = source.drop a := by
  have hd : source.drop b = (source.drop a).drop (b - a) := by
    rw [List.drop_drop, Nat.add_sub_cancel' h]
  rw [hd, slice, List.take_append_drop]

theorem slice_append_slice (source : Bytes) {a b c : Nat} (hab : a ≤ b) (hbc : b ≤ c) :
    slice source a b ++ slice source b c = slice source a c := by
  have hd : source.drop b = (source.drop a).drop (b - a) := by
    rw [List.drop_drop, Nat.add_sub_cancel' hab]
  rw [slice, slice, slice, hd, ← List.take_add]
  congr 1
  omega

/-- A splice is made of the gaps and the new bytes alone. -/
theorem splice_eq_of_gaps {source source' : Bytes} {cursor cursor' : Nat}
    {edits edits' : List (Span × Bytes)}
    (hgaps : gaps source cursor (edits.map (·.1)) = gaps source' cursor' (edits'.map (·.1)))
    (hpieces : edits.map (·.2) = edits'.map (·.2)) :
    splice source cursor edits = splice source' cursor' edits' := by
  induction edits generalizing edits' cursor cursor' with
  | nil =>
      obtain rfl : edits' = [] := by simpa using hpieces.symm
      simpa [gaps, splice] using hgaps
  | cons e edits ih =>
      obtain ⟨e', edits', rfl⟩ : ∃ e' rest, edits' = e' :: rest := by
        cases edits' with
        | nil => simp at hpieces
        | cons e' rest => exact ⟨e', rest, rfl⟩
      simp only [List.map_cons, gaps, List.cons.injEq] at hgaps hpieces
      rw [splice, splice, hgaps.1, hpieces.1, ih hgaps.2 hpieces.2]

theorem slice_append_splice (source : Bytes) {a b : Nat} (hab : a ≤ b)
    (edits : List (Span × Bytes)) (hb : ∀ e ∈ edits, b ≤ e.1.start) :
    slice source a b ++ splice source b edits = splice source a edits := by
  cases edits with
  | nil => exact slice_append_drop source hab
  | cons e edits =>
      have he : b ≤ e.1.start := hb e List.mem_cons_self
      rw [splice, splice, ← List.append_assoc, ← List.append_assoc, slice_append_slice source hab he]

/-- Spans that keep their bytes need not be mentioned. -/
theorem splice_filterMap {α : Type} (source : Bytes) (span : α → Span) (new : α → Option Bytes)
    {length : Nat} (items : List α) (horder : Span.InOrder length (items.map span)) (cursor : Nat)
    (hcursor : ∀ i ∈ items, cursor ≤ (span i).start) :
    splice source cursor (items.map fun i =>
        (span i, (new i).getD (slice source (span i).start (span i).stop))) =
      splice source cursor (items.filterMap fun i => (new i).map fun piece => (span i, piece)) := by
  induction items generalizing cursor with
  | nil => rfl
  | cons i items ih =>
      have hstart : cursor ≤ (span i).start := hcursor i List.mem_cons_self
      have hstop : (span i).start ≤ (span i).stop := (horder.bounds _ List.mem_cons_self).1
      have hnext : ∀ j ∈ items, (span i).stop ≤ (span j).start := fun j hj =>
        horder.le_start _ (List.mem_map_of_mem hj)
      have hrest := ih horder.tail (span i).stop hnext
      cases hn : new i with
      | some piece =>
          rw [List.filterMap_cons_some (by rw [hn]; rfl), List.map_cons, splice, splice, hrest, hn]
          rfl
      | none =>
          -- The span becomes a part of the gap in front of it.
          rw [List.filterMap_cons_none (by rw [hn]; rfl), List.map_cons, splice, hrest, hn,
            Option.getD_none, slice_append_slice source hstart hstop,
            slice_append_splice source (Nat.le_trans hstart hstop)]
          intro e he
          obtain ⟨j, hj, hje⟩ := List.mem_filterMap.mp he
          obtain ⟨piece, -, rfl⟩ := Option.map_eq_some_iff.mp hje
          exact hnext j hj

/-- After a splice each new piece is found where `moved` says. -/
theorem slice_moved (source : Bytes) (edits : List (Span × Bytes))
    (horder : Span.InOrder source.length (edits.map (·.1))) (cursor : Nat)
    (hcursor : ∀ e ∈ edits, cursor ≤ e.1.start) (before : Bytes) :
    (moved cursor before.length edits).map (fun s =>
        slice (before ++ splice source cursor edits) s.start s.stop) = edits.map (·.2) := by
  induction edits generalizing cursor before with
  | nil => rfl
  | cons e edits ih =>
      obtain ⟨s, piece⟩ := e
      obtain ⟨hs, hlen⟩ := horder.bounds s List.mem_cons_self
      have hgap : (slice source cursor s.start).length = s.start - cursor :=
        length_slice (Nat.le_trans hs hlen)
      have hplace : before.length + (s.start - cursor) =
          (before ++ slice source cursor s.start).length := by rw [List.length_append, hgap]
      have hrest := ih horder.tail s.stop
        (fun e he => horder.le_start _ (List.mem_map_of_mem he))
        (before ++ slice source cursor s.start ++ piece)
      simp only [moved, splice, List.map_cons, hplace]
      rw [@List.length_append _ _ piece] at hrest
      congr 1
      · rw [slice, ← List.append_assoc, ← List.append_assoc, List.append_assoc _ piece,
          List.drop_left, Nat.add_sub_cancel_left, List.take_left]
      · rw [← hrest]
        simp only [List.append_assoc]

theorem slice_middle (as bs cs : Bytes) :
    slice (as ++ bs ++ cs) as.length (as ++ bs).length = bs := by
  rw [slice, List.append_assoc, List.drop_left, List.length_append, Nat.add_sub_cancel_left,
    List.take_left]

theorem place_le_start_moved {cursor place : Nat} {edits : List (Span × Bytes)} :
    ∀ s ∈ moved cursor place edits, place ≤ s.start := by
  induction edits generalizing cursor place with
  | nil => exact fun s hs => absurd hs List.not_mem_nil
  | cons e edits ih =>
      rw [moved, List.forall_mem_cons]
      refine ⟨Nat.le_add_right _ _, fun s hs => ?_⟩
      have hplace := ih s hs
      omega

/-- The new bytes lie one after another in the new text. -/
theorem inOrder_moved (source : Bytes) (edits : List (Span × Bytes))
    (horder : Span.InOrder source.length (edits.map (·.1))) (cursor place : Nat) :
    Span.InOrder (place + (splice source cursor edits).length) (moved cursor place edits) := by
  induction edits generalizing cursor place with
  | nil => exact ⟨fun s hs => absurd hs List.not_mem_nil, .nil⟩
  | cons e edits ih =>
      obtain ⟨s, piece⟩ := e
      obtain ⟨hs, hlen⟩ := horder.bounds s List.mem_cons_self
      have hgap : (slice source cursor s.start).length = s.start - cursor :=
        length_slice (Nat.le_trans hs hlen)
      have hrest := ih horder.tail s.stop (place + (s.start - cursor) + piece.length)
      have hlength : place + (splice source cursor ((s, piece) :: edits)).length =
          place + (s.start - cursor) + piece.length + (splice source s.stop edits).length := by
        rw [splice, List.length_append, List.length_append, hgap]
        omega
      rw [hlength, moved]
      refine ⟨List.forall_mem_cons.mpr ⟨?_, hrest.bounds⟩,
        List.pairwise_cons.mpr ⟨place_le_start_moved, hrest.apart⟩⟩
      simp only
      omega

/-- A splice leaves what lies around the new bytes as it was. -/
theorem gaps_moved (source : Bytes) (edits : List (Span × Bytes))
    (horder : Span.InOrder source.length (edits.map (·.1))) (cursor : Nat) (before : Bytes) :
    gaps (before ++ splice source cursor edits) before.length (moved cursor before.length edits) =
      gaps source cursor (edits.map (·.1)) := by
  induction edits generalizing cursor before with
  | nil => simp [gaps, moved, splice]
  | cons e edits ih =>
      obtain ⟨s, piece⟩ := e
      obtain ⟨hs, hlen⟩ := horder.bounds s List.mem_cons_self
      have hplace : before.length + (s.start - cursor) =
          (before ++ slice source cursor s.start).length := by
        rw [List.length_append, length_slice (Nat.le_trans hs hlen)]
      have hrest := ih horder.tail s.stop (before ++ slice source cursor s.start ++ piece)
      rw [@List.length_append _ _ piece] at hrest
      simp only [moved, splice, gaps, List.map_cons, hplace]
      congr 1
      · rw [← List.append_assoc, ← List.append_assoc, List.append_assoc _ piece]
        exact slice_middle before (slice source cursor s.start) _
      · rw [← hrest]
        simp only [List.append_assoc]

theorem splice_unchanged (source : Bytes) {length : Nat} (spans : List Span)
    (horder : Span.InOrder length spans) :
    splice source 0 (spans.map fun s => (s, slice source s.start s.stop)) = source := by
  have h := splice_filterMap source id (fun _ => none) spans (by rwa [List.map_id]) 0
    fun s _ => Nat.zero_le s.start
  have hnone : (spans.filterMap fun _ => (none : Option (Span × Bytes))) = [] :=
    List.filterMap_eq_nil_iff.mpr fun _ _ => rfl
  exact h.trans (congrArg (splice source 0) hnone)

def IsText (bs : Bytes) : Prop := ∃ s, encode s = bs

theorem encodeChars_append (cs ds : List Char) :
    encodeChars (cs ++ ds) = encodeChars cs ++ encodeChars ds := List.flatMap_append

theorem isText_encodeChars (cs : List Char) : IsText (encodeChars cs) :=
  ⟨String.ofList cs, by rw [encode, String.toList_ofList]⟩

theorem IsText.append {as bs : Bytes} (ha : IsText as) (hb : IsText bs) : IsText (as ++ bs) := by
  obtain ⟨s, rfl⟩ := ha
  obtain ⟨t, rfl⟩ := hb
  rw [encode, encode, ← encodeChars_append]
  exact isText_encodeChars _

theorem drop_boundary {text : String} {k i : Nat}
    (h : (encodeChars (text.toList.take k)).length = i) :
    (encode text).drop i = encodeChars (text.toList.drop k) := by
  have hsplit : encode text =
      encodeChars (text.toList.take k) ++ encodeChars (text.toList.drop k) := by
    rw [← encodeChars_append, List.take_append_drop, encode]
  rw [hsplit, ← h, List.drop_left]

theorem IsBoundary.isText_drop {text : String} {i : Nat} (h : IsBoundary text i) :
    IsText ((encode text).drop i) := by
  obtain ⟨k, -, hk⟩ := h
  rw [drop_boundary hk]
  exact isText_encodeChars _

theorem IsBoundary.isText_slice {text : String} {i j : Nat} (hi : IsBoundary text i)
    (hj : IsBoundary text j) : IsText (slice (encode text) i j) := by
  obtain ⟨k, -, hk⟩ := hi
  obtain ⟨l, -, hl⟩ := hj
  rw [slice, drop_boundary hk]
  by_cases hkl : k ≤ l
  · have hsplit : text.toList.take l = text.toList.take k ++ (text.toList.drop k).take (l - k) := by
      rw [← List.take_add, Nat.add_sub_cancel' hkl]
    have hlen : j - i = (encodeChars ((text.toList.drop k).take (l - k))).length := by
      rw [← hl, ← hk, hsplit, encodeChars_append, List.length_append, Nat.add_sub_cancel_left]
    rw [hlen, ← List.take_append_drop (l - k) (text.toList.drop k), encodeChars_append,
      List.take_append_drop, List.take_left]
    exact isText_encodeChars _
  · have hsplit : text.toList.take k = text.toList.take l ++ (text.toList.drop l).take (k - l) := by
      rw [← List.take_add, Nat.add_sub_cancel' (by omega)]
    have hlen : j - i = 0 := by
      rw [← hl, ← hk, hsplit, encodeChars_append, List.length_append]
      omega
    rw [hlen, List.take_zero]
    exact isText_encodeChars []

theorem isText_splice {text : String} (edits : List (Span × Bytes))
    (hbound : OnBoundaries text (edits.map (·.1))) (hpieces : ∀ e ∈ edits, IsText e.2)
    (cursor : Nat) (hcursor : IsBoundary text cursor) :
    IsText (splice (encode text) cursor edits) := by
  induction edits generalizing cursor with
  | nil => exact hcursor.isText_drop
  | cons e edits ih =>
      obtain ⟨hstart, hstop⟩ := hbound e.1 List.mem_cons_self
      have hrest := ih (fun s hs => hbound s (List.mem_cons_of_mem _ hs))
        (fun e he => hpieces e (List.mem_cons_of_mem _ he)) e.1.stop hstop
      exact ((hcursor.isText_slice hstart).append (hpieces e List.mem_cons_self)).append hrest

theorem isBoundary_zero (text : String) : IsBoundary text 0 := ⟨0, Nat.zero_le _, rfl⟩

end Text

end Pseudonym
