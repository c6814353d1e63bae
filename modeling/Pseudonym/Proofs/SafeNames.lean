import Mathlib.Data.List.TakeWhile
import Pseudonym.Language.JavaScript
import Pseudonym.Language.Lexeme
import Pseudonym.Names.Words
import Pseudonym.Proofs.Traversal
import Pseudonym.Text.Blank
import Pseudonym.Tree.Rules

namespace Pseudonym

open Pseudonym.Language Traversal

variable {σ : Type}

section Characters

theorem toNat_lt_of_isAlphanum {c : Char} (h : c.isAlphanum = true) : c.toNat < 128 := by
  delta Char.isAlphanum Char.isAlpha Char.isUpper Char.isLower Char.isDigit at h
  simp only [Bool.or_eq_true, Bool.and_eq_true, decide_eq_true_eq] at h
  rcases h with (⟨-, h⟩ | ⟨-, h⟩) | ⟨-, h⟩ <;>
    exact Nat.lt_of_le_of_lt (UInt32.le_iff_toNat_le.mp h) (by decide)

theorem toNat_lt_of_isWordChar {c : Char} (h : isWordChar c = true) : c.toNat < 128 := by
  simp only [isWordChar, Bool.or_eq_true, decide_eq_true_eq] at h
  rcases h with (h | rfl) | rfl
  · exact toNat_lt_of_isAlphanum h
  · decide
  · decide

/-- What is to be shown of the characters of names has to be shown of finitely many characters. -/
theorem of_isWordChar {P : Char → Prop}
    (h : ∀ n < 128, isWordChar (Char.ofNat n) = true → P (Char.ofNat n)) {c : Char}
    (hc : isWordChar c = true) : P c := by
  have hn := h c.toNat (toNat_lt_of_isWordChar hc)
  rw [Char.ofNat_toNat] at hn
  exact hn hc

theorem isWordChar_of_isAlpha {c : Char} (h : c.isAlpha = true) : isWordChar c = true := by
  simp [isWordChar, Char.isAlphanum, h]

theorem isWordChar_of_isDigit {c : Char} (h : c.isDigit = true) : isWordChar c = true := by
  simp [isWordChar, Char.isAlphanum, h]

theorem isNamePart_of_isWordChar {c : Char} (h : isWordChar c = true) :
    Lexeme.isNamePart c = true :=
  of_isWordChar (P := fun c => Lexeme.isNamePart c = true) (by decide +kernel) h

theorem isNameStart_of_isAlpha {c : Char} (h : c.isAlpha = true) : Lexeme.isNameStart c = true :=
  of_isWordChar (P := fun c => c.isAlpha = true → Lexeme.isNameStart c = true) (by decide +kernel)
    (isWordChar_of_isAlpha h) h

theorem not_isBlank_of_isWordChar {c : Char} (h : isWordChar c = true) :
    Text.isBlank c = false ∧ Lexeme.isBlank c = false :=
  of_isWordChar (P := fun c => Text.isBlank c = false ∧ Lexeme.isBlank c = false)
    (by decide +kernel) h

end Characters

theorem Text.eq_toString_of_decimal? {n : Int} {digits : String}
    (h : Text.decimal? n = some digits) : digits = toString n := by
  rw [Text.decimal?] at h
  split at h
  · cases h
  · exact (Option.some.inj h).symm

theorem isSafeSeparator_iff {s : String} :
    isSafeSeparator s = true ↔ ∃ body : List Char, (∀ c ∈ body, isWordChar c = true) ∧
      (s.toList = body ∨ s.toList = body ++ ['\n']) := by
  rw [isSafeSeparator]
  -- The characters of the body are those before the first that is none of a word.
  constructor
  · intro h
    have hsplit := List.takeWhile_append_dropWhile (p := isWordChar) (l := s.toList)
    refine ⟨s.toList.takeWhile isWordChar, fun c hc => List.mem_takeWhile_imp hc, ?_⟩
    split at h
    next hnil =>
      rw [hnil, List.append_nil] at hsplit
      exact .inl hsplit.symm
    next =>
      rw [of_decide_eq_true h] at hsplit
      exact .inr hsplit.symm
  · rintro ⟨body, hbody, hs | hs⟩
    · rw [hs, List.dropWhile_eq_nil_iff.mpr hbody]
    · rw [hs, List.dropWhile_append_of_pos hbody]
      rfl

namespace WordOptions

structure Sound (options : WordOptions) : Prop where
  lowest_nonneg : 0 ≤ options.lowest
  lowest_le : options.lowest ≤ options.highest
  separator : isSafeSeparator options.separator = true

theorem ofSection_sound {settings : Value} {options : WordOptions}
    (h : ofSection settings = .ok options) : options.Sound := by
  simp only [ofSection, bind_eq_ok_iff] at h
  obtain ⟨locale, -, seed, -, written, -, separator, -, least, -, lowest, -, most, -, highest, -, h⟩ := h
  split at h
  · cases h
  next hlowest =>
    split at h
    · cases h
    next hrange =>
      split at h
      · cases h
      next hseparator =>
        obtain rfl := Except.ok.inj h
        exact ⟨Int.not_lt.mp hlowest, Int.not_lt.mp hrange, by simpa using hseparator⟩

end WordOptions

namespace WordSource

/-- The numbers of the source lie between the bounds. -/
def InRange (source : WordSource σ) : Prop :=
  ∀ lowest highest state n, lowest ≤ highest → (source.number lowest highest state).1 = .ok n →
    lowest ≤ n ∧ n ≤ highest

theorem fmod_inRange {lowest highest : Int} (h : lowest ≤ highest) (n : Int) :
    lowest ≤ lowest + n.fmod (highest - lowest + 1) ∧
      lowest + n.fmod (highest - lowest + 1) ≤ highest := by
  have hpos : 0 < highest - lowest + 1 := by omega
  have hlow := Int.fmod_nonneg_of_pos n hpos
  have hhigh := Int.fmod_lt_of_pos n hpos
  omega

theorem listed_inRange (words : List String) (numbers : List Int) (strict : Bool) :
    (listed words numbers strict).InRange := by
  rintro lowest highest state n h hn
  obtain ⟨m, -, rfl⟩ := map_eq_ok_iff.mp hn
  exact fmod_inRange h _

theorem plainWord_letters (word : String) :
    (plainWord word).toList ≠ [] ∧ ∀ c ∈ (plainWord word).toList, c.isAlpha = true := by
  rw [plainWord]
  split
  · exact ⟨by decide, List.all_eq_true.mp (by decide)⟩
  next letters hne =>
    rw [String.toList_ofList]
    exact ⟨hne, fun c hc => (List.mem_filter.mp hc).2⟩

theorem draw_eq_ok_iff {source : WordSource σ} {options : WordOptions} {state : σ} {name : String} :
    (source.draw options state).1 = .ok name ↔ ∃ word n, (source.word state).1 = .ok word ∧
      (source.number options.lowest options.highest (source.word state).2).1 = .ok n ∧
      ∃ digits, Text.decimal? n = some digits ∧ plainWord word ++ options.separator ++ digits = name := by
  rw [draw]
  rcases source.word state with ⟨e | word, next⟩
  · simp
  · rcases hnumber : source.number options.lowest options.highest next with ⟨e | n, last⟩
    · simp [hnumber]
    · cases hdigits : Text.decimal? n <;> simp [hnumber, hdigits]

end WordSource

namespace Language.Lexeme

theorem nameRest_append {xs : List Char} (hxs : ∀ c ∈ xs, isNamePart c = true) (fuel : Nat)
    (rest : List Char) :
    nameRest (fuel + xs.length) (xs ++ rest) = nameRest fuel rest + xs.length := by
  induction xs with
  | nil => rfl
  | cons c xs ih =>
      obtain ⟨hc, hxs⟩ := List.forall_mem_cons.mp hxs
      rw [List.length_cons, ← Nat.add_assoc, List.cons_append, nameRest, if_pos hc, ih hxs]
      rfl

/-- A name goes as far as its characters go. -/
theorem name_append {c : Char} {xs : List Char} (hc : isNameStart c = true)
    (hxs : ∀ c ∈ xs, isNamePart c = true) (rest : List Char) :
    name (c :: xs ++ rest) = some (nameRest rest.length rest + (c :: xs).length) := by
  have hrest := nameRest_append hxs rest.length rest
  rw [List.cons_append, name, if_pos hc, List.length_append, Nat.add_comm xs.length, hrest]
  rfl

theorem nameRest_newline (fuel : Nat) (rest : List Char) : nameRest fuel ('\n' :: rest) = 0 := by
  cases fuel <;> rfl

end Language.Lexeme

namespace WordOptions

/-- A name of letters, the separator and a number of the range. -/
structure Spelled (options : WordOptions) (letters : List Char) (number : Nat) (name : String) :
    Prop where
  letters_ne_nil : letters ≠ []
  isAlpha_letters : ∀ c ∈ letters, c.isAlpha = true
  lowest_le : options.lowest ≤ number
  le_highest : number ≤ options.highest
  toList_eq : name.toList = letters ++ options.separator.toList ++ Nat.toDigits 10 number

namespace Spelled

variable {options : WordOptions} {letters : List Char} {number : Nat} {name : String}

theorem exists_head (h : options.Spelled letters number name) :
    ∃ c, name.toList.head? = some c ∧ c.isAlpha = true := by
  obtain ⟨c, hc⟩ := Option.isSome_iff_exists.mp (List.isSome_head?.mpr h.letters_ne_nil)
  refine ⟨c, ?_, h.isAlpha_letters c (List.mem_of_head? hc)⟩
  rw [h.toList_eq, List.append_assoc, List.head?_append, hc]
  rfl

theorem exists_last (h : options.Spelled letters number name) :
    ∃ c, name.toList.getLast? = some c ∧ c.isDigit = true := by
  have hdigits : Nat.toDigits 10 number ≠ [] := Nat.toDigits_ne_nil
  refine ⟨_, ?_, Nat.isDigit_of_mem_toDigits (by decide) (by decide) (List.getLast_mem hdigits)⟩
  rw [h.toList_eq, List.getLast?_append, List.getLast?_eq_some_getLast hdigits]
  rfl

theorem notMem (h : options.Spelled letters number name) {words : List String}
    (hwords : ∀ word ∈ words, word.toList.getLast?.any Char.isDigit = false) : name ∉ words := by
  intro hmem
  obtain ⟨c, hc, hdigit⟩ := h.exists_last
  have hword := hwords name hmem
  rw [hc, Option.any_some, hdigit] at hword
  cases hword

/-- What holds of all characters of words and not of a line end tells whether the separator ends a
line. -/
theorem forall_mem_iff (h : options.Spelled letters number name) (hsound : options.Sound)
    {P : Char → Prop} (hword : ∀ c, isWordChar c = true → P c) (hnewline : ¬ P '\n') :
    (∀ c ∈ name.toList, P c) ↔ '\n' ∉ options.separator.toList := by
  rw [h.toList_eq]
  constructor
  · intro hall hmem
    exact hnewline (hall _ (List.mem_append_left _ (List.mem_append_right _ hmem)))
  · intro hplain c hc
    apply hword
    obtain ⟨body, hbody, hs | hs⟩ := isSafeSeparator_iff.mp hsound.separator
    · rw [hs, List.mem_append, List.mem_append] at hc
      rcases hc with (hc | hc) | hc
      · exact isWordChar_of_isAlpha (h.isAlpha_letters c hc)
      · exact hbody c hc
      · exact isWordChar_of_isDigit (Nat.isDigit_of_mem_toDigits (by decide) (by decide) hc)
    · rw [hs] at hplain
      exact absurd (List.mem_append_right body List.mem_cons_self) hplain

theorem name_of_forall_isWordChar (h : options.Spelled letters number name)
    (hall : ∀ c ∈ name.toList, isWordChar c = true) :
    Lexeme.name name.toList = some name.length := by
  obtain ⟨first, letters, rfl⟩ := List.exists_cons_of_ne_nil h.letters_ne_nil
  have hfirst := isNameStart_of_isAlpha (h.isAlpha_letters first List.mem_cons_self)
  rw [← String.length_toList]
  rw [h.toList_eq, List.append_assoc, List.cons_append] at hall ⊢
  have hrest := fun c hc => isNamePart_of_isWordChar ((List.forall_mem_cons.mp hall).2 c hc)
  have hname := Lexeme.name_append hfirst hrest []
  rw [List.append_nil] at hname
  exact hname.trans (congrArg some (Nat.zero_add _))

theorem name_of_newline (h : options.Spelled letters number name) {body : List Char}
    (hbody : ∀ c ∈ body, isWordChar c = true) (hs : options.separator.toList = body ++ ['\n']) :
    Lexeme.name name.toList = some (letters ++ body).length := by
  obtain ⟨first, letters, rfl⟩ := List.exists_cons_of_ne_nil h.letters_ne_nil
  obtain ⟨hfirst, hletters⟩ := List.forall_mem_cons.mp h.isAlpha_letters
  have hrest : ∀ c ∈ letters ++ body, Lexeme.isNamePart c = true := by
    intro c hc
    apply isNamePart_of_isWordChar
    rcases List.mem_append.mp hc with hc | hc
    · exact isWordChar_of_isAlpha (hletters c hc)
    · exact hbody c hc
  have hname := Lexeme.name_append (isNameStart_of_isAlpha hfirst) hrest
    ('\n' :: Nat.toDigits 10 number)
  rw [Lexeme.nameRest_newline, Nat.zero_add] at hname
  rw [h.toList_eq, hs]
  simpa using hname

/-- Read as a text of the language, a name is one name from end to end unless the separator ends a
line. -/
theorem name_eq_some_iff (h : options.Spelled letters number name) (hsound : options.Sound) :
    Lexeme.name name.toList = some name.length ↔ '\n' ∉ options.separator.toList := by
  constructor
  · intro hname hmem
    obtain ⟨body, hbody, hs | hs⟩ := isSafeSeparator_iff.mp hsound.separator
    · rw [hs] at hmem
      exact absurd (hbody _ hmem) (by decide)
    · rw [h.name_of_newline hbody hs, Option.some.injEq, ← String.length_toList, h.toList_eq,
        hs] at hname
      simp only [List.length_append, List.length_cons] at hname
      omega
  · intro hplain
    exact h.name_of_forall_isWordChar
      ((h.forall_mem_iff hsound (fun _ hc => hc) (by decide)).mpr hplain)

end Spelled

end WordOptions

namespace WordSource

theorem draw_spelled {source : WordSource σ} {options : WordOptions} {state : σ} {name : String}
    (hsource : source.InRange) (hsound : options.Sound)
    (h : (source.draw options state).1 = .ok name) :
    ∃ letters number, options.Spelled letters number name := by
  obtain ⟨word, n, -, hnumber, digits, hdecimal, rfl⟩ := draw_eq_ok_iff.mp h
  obtain ⟨hlow, hhigh⟩ := hsource _ _ _ n hsound.lowest_le hnumber
  obtain ⟨number, rfl⟩ := Int.eq_ofNat_of_zero_le (Int.le_trans hsound.lowest_nonneg hlow)
  obtain ⟨hne, halpha⟩ := plainWord_letters word
  refine ⟨(plainWord word).toList, number, hne, halpha, hlow, hhigh, ?_⟩
  have hdigits : digits = String.ofList (Nat.toDigits 10 number) :=
    (Text.eq_toString_of_decimal? hdecimal).trans Nat.toString_eq_ofList_toDigits
  rw [hdigits, String.toList_append, String.toList_append, String.toList_ofList]

/-- Whatever is drawn with options from settings is letters, the separator and a number, and no word
of the language. It is a name of the language, and free of blanks, unless the separator ends a line. -/
theorem draw_safe (settings : Value) (options : WordOptions) (source : WordSource σ) (state : σ)
    (name : String) (hoptions : WordOptions.ofSection settings = .ok options)
    (hsource : source.InRange) (hname : (source.draw options state).1 = .ok name) :
    (∃ letters number, options.Spelled letters number name) ∧
    (∃ c, name.toList.head? = some c ∧ c.isAlpha = true) ∧
    (∃ c, name.toList.getLast? = some c ∧ c.isDigit = true) ∧
    name ∉ Rules.reservedWords ∧ name ∉ JavaScript.reservedWords ∧
    ((∀ c ∈ name.toList, isWordChar c = true) ↔ '\n' ∉ options.separator.toList) ∧
    (Lexeme.name name.toList = some name.length ↔ '\n' ∉ options.separator.toList) ∧
    ((∀ c ∈ name.toList, Text.isBlank c = false ∧ Lexeme.isBlank c = false) ↔
      '\n' ∉ options.separator.toList) := by
  have hsound := WordOptions.ofSection_sound hoptions
  obtain ⟨letters, number, h⟩ := draw_spelled hsource hsound hname
  exact ⟨⟨letters, number, h⟩, h.exists_head, h.exists_last, h.notMem (by decide),
    h.notMem (by decide), h.forall_mem_iff hsound (fun _ hc => hc) (by decide),
    h.name_eq_some_iff hsound,
    h.forall_mem_iff hsound (fun _ hc => not_isBlank_of_isWordChar hc) (by decide)⟩

/-- A word without plain letters, a separator that is no text, and a bound that is one. -/
theorem draw_safe_foreign :
    ∃ options, WordOptions.ofSection
        (.map [(.text "separator", .bool true), (.text "min_number", .text "4_2")]) = .ok options ∧
      ((listed ["東京"] [-1] true).draw options (0, 0)).1 = .ok "nameTrue100" ∧
      Lexeme.name "nameTrue100".toList = some "nameTrue100".length := by
  obtain ⟨-, -, -, -, -, -, hname, -⟩ := draw_safe
    (.map [(.text "separator", .bool true), (.text "min_number", .text "4_2")])
    ⟨.text "en_US", .null, "True", 42, 100⟩ (listed ["東京"] [-1] true) (0, 0) "nameTrue100" rfl
    (listed_inRange _ _ _) rfl
  exact ⟨_, rfl, rfl, hname.mpr (by decide)⟩

/-- A separator that ends a line is accepted, and the names with it are broken. -/
theorem draw_broken :
    ∃ options, WordOptions.ofSection (.map [(.text "separator", .text "_\n")]) = .ok options ∧
      ((listed ["lorem"] [0] false).draw options (0, 0)).1 = .ok "lorem_\n1" ∧
      ¬ (∀ c ∈ "lorem_\n1".toList, isWordChar c = true) ∧
      Lexeme.name "lorem_\n1".toList = some 6 :=
  ⟨_, rfl, rfl, fun h => absurd (h '\n' (by decide)) (by decide), rfl⟩

end WordSource

end Pseudonym
