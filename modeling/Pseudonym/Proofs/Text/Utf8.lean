import Pseudonym.Text.Utf8

namespace Pseudonym.Text

theorem toNat_ofNat {n : Nat} (h : n < 0xd800 ∨ 0xdfff < n ∧ n < 0x110000) :
    (Char.ofNat n).toNat = n := by
  have hv : n.isValidChar := h
  rw [Char.ofNat, dif_pos hv]
  rfl

/-- The bytes of the character with a code. -/
def codeBytes (v : Nat) : Bytes :=
  if v ≤ 0x7f then [UInt8.ofNat v]
  else if v ≤ 0x7ff then [UInt8.ofNat (v / 64 % 32 + 192), UInt8.ofNat (v % 64 + 128)]
  else if v ≤ 0xffff then
    [UInt8.ofNat (v / 4096 % 16 + 224), UInt8.ofNat (v / 64 % 64 + 128), UInt8.ofNat (v % 64 + 128)]
  else
    [UInt8.ofNat (v / 262144 % 8 + 240), UInt8.ofNat (v / 4096 % 64 + 128),
      UInt8.ofNat (v / 64 % 64 + 128), UInt8.ofNat (v % 64 + 128)]

theorem utf8EncodeChar_eq (c : Char) : String.utf8EncodeChar c = codeBytes c.toNat := rfl

theorem isContinuation_iff (b : UInt8) :
    isContinuation b = true ↔ 0x80 ≤ b.toNat ∧ b.toNat ≤ 0xbf := by
  simp [isContinuation, UInt8.le_iff_toNat_le]

theorem fitsLead_iff (lead b : UInt8) :
    fitsLead lead b = true ↔ (0x80 ≤ b.toNat ∧ b.toNat ≤ 0xbf) ∧
      (lead.toNat = 0xe0 → 0xa0 ≤ b.toNat) ∧ (lead.toNat = 0xed → b.toNat ≤ 0x9f) ∧
      (lead.toNat = 0xf0 → 0x90 ≤ b.toNat) ∧ (lead.toNat = 0xf4 → b.toNat ≤ 0x8f) := by
  simp only [fitsLead, Bool.and_eq_true, Bool.or_eq_true, decide_eq_true_eq, isContinuation_iff, ne_eq,
    UInt8.le_iff_toNat_le, ← UInt8.toNat_inj, UInt8.reduceToNat]
  omega

theorem sequenceLength_cases (a : UInt8) :
    (a.toNat ≤ 0x7f ∧ sequenceLength a = 1) ∨
    (0xc2 ≤ a.toNat ∧ a.toNat ≤ 0xdf ∧ sequenceLength a = 2) ∨
    (0xe0 ≤ a.toNat ∧ a.toNat ≤ 0xef ∧ sequenceLength a = 3) ∨
    (0xf0 ≤ a.toNat ∧ a.toNat ≤ 0xf4 ∧ sequenceLength a = 4) ∨
    ((0x80 ≤ a.toNat ∧ a.toNat < 0xc2 ∨ 0xf4 < a.toNat) ∧ sequenceLength a = 0) := by
  simp only [sequenceLength, Bool.and_eq_true, decide_eq_true_eq, UInt8.le_iff_toNat_le,
    UInt8.reduceToNat]
  split
  · omega
  · split
    · omega
    · split
      · omega
      · split <;> omega

theorem toNat_byte {n : Nat} (h : n < 256) : (UInt8.ofNat n).toNat = n := by
  rw [UInt8.toNat_ofNat', Nat.mod_eq_of_lt h]

theorem byte_eq {n : Nat} {b : UInt8} (h : b.toNat = n) : UInt8.ofNat n = b := by
  subst n
  exact UInt8.ofNat_toNat

/-- The first byte of a character says how many bytes it has, and the others fit it. -/
theorem chunk_codeBytes (v : Nat) (hv : v < 0xd800 ∨ 0xdfff < v ∧ v < 0x110000) (a : UInt8)
    (tail rest : Bytes) (h : codeBytes v = a :: tail) :
    chunk a (tail ++ rest) = .char (Char.ofNat v) (tail.length + 1) := by
  have hlow : (UInt8.ofNat (v % 64 + 128)).toNat = v % 64 + 128 := toNat_byte (by omega)
  have hmid : (UInt8.ofNat (v / 64 % 64 + 128)).toNat = v / 64 % 64 + 128 := toNat_byte (by omega)
  have hhigh : (UInt8.ofNat (v / 4096 % 64 + 128)).toNat = v / 4096 % 64 + 128 :=
    toNat_byte (by omega)
  unfold codeBytes at h
  -- As names the bytes are opaque, so that only their values are looked at below.
  generalize UInt8.ofNat (v % 64 + 128) = lowest at h hlow
  generalize UInt8.ofNat (v / 64 % 64 + 128) = middle at h hmid
  generalize UInt8.ofNat (v / 4096 % 64 + 128) = highest at h hhigh
  have hs := sequenceLength_cases a
  have hcl : isContinuation lowest = true := by rw [isContinuation_iff]; omega
  have hcm : isContinuation middle = true := by rw [isContinuation_iff]; omega
  split at h
  next h1 =>
    obtain ⟨rfl, rfl⟩ := List.cons.inj h
    have ha := toNat_byte (show v < 256 by omega)
    have hs : sequenceLength (UInt8.ofNat v) = 1 := by omega
    simp only [chunk, hs, ha, List.length_nil]
  next h1 =>
  split at h
  next h2 =>
    obtain ⟨rfl, rfl⟩ := List.cons.inj h
    have ha := toNat_byte (show v / 64 % 32 + 192 < 256 by omega)
    generalize UInt8.ofNat (v / 64 % 32 + 192) = a at hs ha
    have hs : sequenceLength a = 2 := by omega
    have hn : a.toNat % 32 * 64 + low lowest = v := by rw [low]; omega
    simp [chunk, hs, chunk2, hcl, hn]
  next h2 =>
  split at h
  next h3 =>
    obtain ⟨rfl, rfl⟩ := List.cons.inj h
    have ha := toNat_byte (show v / 4096 % 16 + 224 < 256 by omega)
    generalize UInt8.ofNat (v / 4096 % 16 + 224) = a at hs ha
    have hs : sequenceLength a = 3 := by omega
    have hf : fitsLead a middle = true := by rw [fitsLead_iff]; omega
    have hn : (a.toNat % 16 * 64 + low middle) * 64 + low lowest = v := by rw [low, low]; omega
    simp [chunk, hs, chunk3, hf, hcl, hn]
  next h3 =>
    obtain ⟨rfl, rfl⟩ := List.cons.inj h
    have ha := toNat_byte (show v / 262144 % 8 + 240 < 256 by omega)
    generalize UInt8.ofNat (v / 262144 % 8 + 240) = a at hs ha
    have hs : sequenceLength a = 4 := by omega
    have hf : fitsLead a highest = true := by rw [fitsLead_iff]; omega
    have hn : ((a.toNat % 8 * 64 + low highest) * 64 + low middle) * 64 + low lowest = v := by
      rw [low, low, low]; omega
    simp [chunk, hs, chunk4, hf, hcm, hcl, hn]

theorem codeBytes_two (a b : UInt8) (ha : 0xc2 ≤ a.toNat ∧ a.toNat ≤ 0xdf)
    (hb : isContinuation b = true) :
    String.utf8EncodeChar (Char.ofNat (a.toNat % 32 * 64 + low b)) = [a, b] := by
  rw [isContinuation_iff] at hb
  rw [utf8EncodeChar_eq, low, toNat_ofNat (by omega), codeBytes, if_neg (by omega),
    if_pos (by omega), byte_eq (b := a) (by omega), byte_eq (b := b) (by omega)]

theorem codeBytes_three (a b c : UInt8) (ha : 0xe0 ≤ a.toNat ∧ a.toNat ≤ 0xef)
    (hb : fitsLead a b = true) (hc : isContinuation c = true) :
    String.utf8EncodeChar (Char.ofNat ((a.toNat % 16 * 64 + low b) * 64 + low c)) = [a, b, c] := by
  rw [fitsLead_iff] at hb
  rw [isContinuation_iff] at hc
  rw [utf8EncodeChar_eq, low, low, toNat_ofNat (by omega), codeBytes, if_neg (by omega),
    if_neg (by omega), if_pos (by omega), byte_eq (b := a) (by omega), byte_eq (b := b) (by omega),
    byte_eq (b := c) (by omega)]

theorem codeBytes_four (a b c d : UInt8) (ha : 0xf0 ≤ a.toNat ∧ a.toNat ≤ 0xf4)
    (hb : fitsLead a b = true) (hc : isContinuation c = true) (hd : isContinuation d = true) :
    String.utf8EncodeChar (Char.ofNat (((a.toNat % 8 * 64 + low b) * 64 + low c) * 64 + low d)) =
      [a, b, c, d] := by
  rw [fitsLead_iff] at hb
  rw [isContinuation_iff] at hc hd
  rw [utf8EncodeChar_eq, low, low, low, toNat_ofNat (by omega), codeBytes, if_neg (by omega),
    if_neg (by omega), if_neg (by omega), byte_eq (b := a) (by omega), byte_eq (b := b) (by omega),
    byte_eq (b := c) (by omega), byte_eq (b := d) (by omega)]

theorem chunk2_eq_char {a : UInt8} {rest : Bytes} {c : Char} {size : Nat}
    (ha : 0xc2 ≤ a.toNat ∧ a.toNat ≤ 0xdf) (h : chunk2 a rest = .char c size) :
    ∃ b more, rest = b :: more ∧ size = 2 ∧ String.utf8EncodeChar c = [a, b] := by
  cases rest with
  | nil => cases h
  | cons b more =>
      simp only [chunk2] at h
      split at h
      next hb =>
        obtain ⟨rfl, rfl⟩ := Chunk.char.inj h
        exact ⟨b, more, rfl, rfl, codeBytes_two a b ha hb⟩
      next => cases h

theorem chunk3_eq_char {a : UInt8} {rest : Bytes} {x : Char} {size : Nat}
    (ha : 0xe0 ≤ a.toNat ∧ a.toNat ≤ 0xef) (h : chunk3 a rest = .char x size) :
    ∃ b c more, rest = b :: c :: more ∧ size = 3 ∧ String.utf8EncodeChar x = [a, b, c] := by
  match rest with
  | [] => cases h
  | [b] => simp only [chunk3] at h; split at h <;> cases h
  | b :: c :: more =>
      simp only [chunk3] at h
      split at h
      next hb =>
        split at h
        next hc =>
          obtain ⟨rfl, rfl⟩ := Chunk.char.inj h
          exact ⟨b, c, more, rfl, rfl, codeBytes_three a b c ha hb hc⟩
        next => cases h
      next => cases h

theorem chunk4_eq_char {a : UInt8} {rest : Bytes} {x : Char} {size : Nat}
    (ha : 0xf0 ≤ a.toNat ∧ a.toNat ≤ 0xf4) (h : chunk4 a rest = .char x size) :
    ∃ b c d more, rest = b :: c :: d :: more ∧ size = 4 ∧
      String.utf8EncodeChar x = [a, b, c, d] := by
  match rest with
  | [] => cases h
  | [b] => simp only [chunk4] at h; split at h <;> cases h
  | [b, c] =>
      simp only [chunk4] at h
      split at h
      · split at h <;> cases h
      · cases h
  | b :: c :: d :: more =>
      simp only [chunk4] at h
      split at h
      next hb =>
        split at h
        next hc =>
          split at h
          next hd =>
            obtain ⟨rfl, rfl⟩ := Chunk.char.inj h
            exact ⟨b, c, d, more, rfl, rfl, codeBytes_four a b c d ha hb hc hd⟩
          next => cases h
        next => cases h
      next => cases h

/-- A character is read only from its own bytes. -/
theorem utf8EncodeChar_of_chunk {a : UInt8} {rest : Bytes} {c : Char} {size : Nat}
    (h : chunk a rest = .char c size) :
    ∃ tail more, rest = tail ++ more ∧ size = tail.length + 1 ∧
      String.utf8EncodeChar c = a :: tail := by
  rcases sequenceLength_cases a with ⟨ha, hs⟩ | ⟨ha, ha', hs⟩ | ⟨ha, ha', hs⟩ | ⟨ha, ha', hs⟩ |
    ⟨-, hs⟩ <;> simp only [chunk, hs] at h
  · obtain ⟨rfl, rfl⟩ := Chunk.char.inj h
    refine ⟨[], rest, rfl, rfl, ?_⟩
    rw [utf8EncodeChar_eq, toNat_ofNat (by omega), codeBytes, if_pos ha, byte_eq rfl]
  · obtain ⟨b, more, rfl, rfl, hc⟩ := chunk2_eq_char ⟨ha, ha'⟩ h
    exact ⟨[b], more, rfl, rfl, hc⟩
  · obtain ⟨b, c, more, rfl, rfl, hc⟩ := chunk3_eq_char ⟨ha, ha'⟩ h
    exact ⟨[b, c], more, rfl, rfl, hc⟩
  · obtain ⟨b, c, d, more, rfl, rfl, hc⟩ := chunk4_eq_char ⟨ha, ha'⟩ h
    exact ⟨[b, c, d], more, rfl, rfl, hc⟩
  · cases h

theorem decodeFrom_skip (position : Nat) (skipped rest : Bytes) :
    decodeFrom position skipped.length (skipped ++ rest) =
      decodeFrom (position + skipped.length) 0 rest := by
  induction skipped generalizing position with
  | nil => rfl
  | cons b skipped ih =>
      rw [List.length_cons, List.cons_append, decodeFrom, ih, Nat.add_right_comm, Nat.add_assoc]

theorem decodeFrom_encodeChars (position : Nat) (cs : List Char) :
    decodeFrom position 0 (encodeChars cs) = .ok cs := by
  induction cs generalizing position with
  | nil => rfl
  | cons c cs ih =>
      obtain ⟨a, tail, he⟩ := List.exists_cons_of_ne_nil (String.utf8EncodeChar_ne_nil (c := c))
      have hc : chunk a (tail ++ encodeChars cs) = .char c (tail.length + 1) := by
        rw [chunk_codeBytes c.toNat c.valid a tail _ he, Char.ofNat_toNat]
      change decodeFrom position 0 (String.utf8EncodeChar c ++ encodeChars cs) = _
      rw [he, List.cons_append, decodeFrom]
      simp only [hc, Nat.add_sub_cancel, decodeFrom_skip, ih]
      rfl

theorem encodeChars_of_decodeFrom (position : Nat) (bs : Bytes) (cs : List Char)
    (h : decodeFrom position 0 bs = .ok cs) : encodeChars cs = bs := by
  induction hn : bs.length using Nat.strongRecOn generalizing position bs cs with
  | ind n ih =>
    cases bs with
    | nil => cases h; rfl
    | cons a rest =>
        rw [decodeFrom] at h
        cases hc : chunk a rest with
        | fault size why => simp [hc] at h
        | char c size =>
            obtain ⟨tail, more, rfl, rfl, he⟩ := utf8EncodeChar_of_chunk hc
            simp only [hc, Nat.add_sub_cancel, decodeFrom_skip] at h
            cases hm : decodeFrom (position + 1 + tail.length) 0 more with
            | error e => simp [hm, Except.map] at h
            | ok ds =>
                simp only [hm, Except.map, Except.ok.injEq] at h
                subst h
                have hd := ih more.length (by simp at hn; omega) _ more ds hm rfl
                change String.utf8EncodeChar c ++ encodeChars ds = _
                rw [he, hd, List.cons_append]

theorem decode_eq_ok_iff {bs : Bytes} {s : String} : decode bs = .ok s ↔ bs = encode s := by
  constructor
  · intro h
    cases hd : decodeChars bs with
    | error e => simp [decode, hd, Except.map] at h
    | ok cs =>
        simp only [decode, hd, Except.map, Except.ok.injEq] at h
        subst h
        rw [encode, String.toList_ofList, encodeChars_of_decodeFrom 0 bs cs hd]
  · rintro rfl
    rw [decode, decodeChars, encode, decodeFrom_encodeChars, Except.map, String.ofList_toList]

theorem encode_injective {s t : String} (h : encode s = encode t) : s = t :=
  Except.ok.inj ((decode_eq_ok_iff.mpr rfl).symm.trans (decode_eq_ok_iff.mpr h))

end Pseudonym.Text
