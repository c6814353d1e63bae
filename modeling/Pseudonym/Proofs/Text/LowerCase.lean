import Mathlib.Data.List.TakeWhile
import Pseudonym.Proofs.Text.Utf8
import Pseudonym.Text.Blank
import Pseudonym.Text.Case

namespace Pseudonym.Text

namespace CaseRun

variable {r s : CaseRun}

/-- The lower case of the first letter. -/
def low (r : CaseRun) : Nat := (r.first + r.shift).toNat

/-- The lower case of the last letter. -/
def high (r : CaseRun) : Nat := (r.last + r.shift).toNat

/-- The lower case of one run lies in front of another, behind it, or between its letters. -/
def avoids (r s : CaseRun) : Bool :=
  Nat.blt r.high s.first || Nat.blt s.last r.low ||
    (Nat.beq s.step 2 && (Nat.beq r.step 2 || Nat.beq r.first r.last) && Nat.blt 0 r.low &&
      Nat.beq ((r.low + s.first) % 2) 1)

theorem contains_iff {n : Nat} :
    r.contains n = true ↔ r.first ≤ n ∧ n ≤ r.last ∧ (n - r.first) % r.step = 0 := by
  simp only [contains, Bool.and_eq_true, decide_eq_true_eq, beq_iff_eq, and_assoc]

theorem not_contains_of_avoids (h : r.avoids s = true) {n : Nat} (hn : r.contains n = true) :
    s.contains (n + r.shift).toNat = false := by
  rw [← Bool.not_eq_true, contains_iff]
  rintro ⟨hfirst, hlast, hstep⟩
  obtain ⟨hfirst', hlast', hstep'⟩ := contains_iff.mp hn
  simp only [avoids, low, high, Bool.or_eq_true, Bool.and_eq_true, Nat.blt_eq, Nat.beq_eq] at h
  rcases h with (h | h) | ⟨⟨⟨htwo, hparity⟩, hpos⟩, hodd⟩
  · omega
  · omega
  · -- Every second code is a letter of the other run, and these are the codes between.
    rw [htwo] at hstep
    rcases hparity with htwo' | hone
    · rw [htwo'] at hstep'
      omega
    · omega

end CaseRun

section Runs

def blankRuns : List CaseRun :=
  [⟨0x09, 0x0d, 1, 0⟩, ⟨0x1c, 0x20, 1, 0⟩, ⟨0x85, 0x85, 1, 0⟩, ⟨0xa0, 0xa0, 1, 0⟩,
    ⟨0x1680, 0x1680, 1, 0⟩, ⟨0x2000, 0x200a, 1, 0⟩, ⟨0x2028, 0x2029, 1, 0⟩, ⟨0x202f, 0x202f, 1, 0⟩,
    ⟨0x205f, 0x205f, 1, 0⟩, ⟨0x3000, 0x3000, 1, 0⟩]

/-- What is no letter in lower case: other letters of the table, the two that have rules of their own,
blanks, and what is no character. -/
def barredRuns : List CaseRun :=
  [⟨0x130, 0x130, 1, 0⟩, ⟨0x3a3, 0x3a3, 1, 0⟩, ⟨0xd800, 0xdfff, 1, 0⟩] ++ blankRuns ++ caseRuns

theorem contains_iff_of_step_one {first last n : Nat} {shift : Int} :
    (CaseRun.mk first last 1 shift).contains n = true ↔ first ≤ n ∧ n ≤ last := by
  rw [CaseRun.contains_iff]
  simp [Nat.mod_one]

theorem isBlank_iff {c : Char} :
    isBlank c = true ↔ ∃ r ∈ blankRuns, r.contains c.toNat = true := by
  simp only [isBlank, blankRuns, List.mem_cons, List.not_mem_nil, or_false, exists_eq_or_imp,
    exists_eq_left, contains_iff_of_step_one, Bool.or_eq_true, Bool.and_eq_true, decide_eq_true_eq,
    beq_iff_eq]
  omega

theorem avoids_of_mem {r s : CaseRun} (hr : r ∈ caseRuns) (hs : s ∈ barredRuns) :
    r.avoids s = true := by
  have hall : (caseRuns.all fun r => barredRuns.all r.avoids) = true := by decide +kernel
  exact List.all_eq_true.mp (List.all_eq_true.mp hall r hr) s hs

theorem high_lt {r : CaseRun} (hr : r ∈ caseRuns) : r.high < 0x110000 := by
  have hall : (caseRuns.all fun r => Nat.blt r.high 0x110000) = true := by decide +kernel
  exact Nat.blt_eq.mp (List.all_eq_true.mp hall r hr)

/-- No letter of the table is a blank itself. -/
theorem not_isBlank_of_contains {r : CaseRun} (hr : r ∈ caseRuns) {c : Char}
    (hc : r.contains c.toNat = true) : isBlank c = false := by
  have hall : (caseRuns.all fun r => blankRuns.all (CaseRun.mk r.first r.last r.step 0).avoids) =
      true := by decide +kernel
  rw [← Bool.not_eq_true, isBlank_iff]
  rintro ⟨s, hs, hblank⟩
  have hnot := CaseRun.not_contains_of_avoids
    (List.all_eq_true.mp (List.all_eq_true.mp hall r hr) s hs) (n := c.toNat) hc
  rw [Int.add_zero, Int.toNat_natCast] at hnot
  exact absurd hblank (by simp [hnot])

end Runs

section Letters

/-- A letter that lower case leaves as it is. -/
def IsLow (c : Char) : Prop :=
  c.toNat ≠ 0x130 ∧ c.toNat ≠ 0x3a3 ∧ ∀ r ∈ caseRuns, r.contains c.toNat = false

instance (c : Char) : Decidable (IsLow c) := inferInstanceAs (Decidable (_ ∧ _ ∧ ∀ r ∈ caseRuns, _))

/-- What is written for a letter: letters in lower case, which are blanks if it is one. -/
structure Lowers (c : Char) (low : List Char) : Prop where
  ne_nil : low ≠ []
  isLow : ∀ d ∈ low, IsLow d
  isBlank : ∀ d ∈ low, isBlank d = isBlank c

theorem lowers_shifted {r : CaseRun} (hr : r ∈ caseRuns) {c : Char} (hc : r.contains c.toNat = true) :
    Lowers c [Char.ofNat (c.toNat + r.shift).toNat] := by
  have hnot : ∀ s ∈ barredRuns, s.contains (c.toNat + r.shift).toNat = false := fun s hs =>
    CaseRun.not_contains_of_avoids (avoids_of_mem hr hs) hc
  have hbarred : ∀ first last, ⟨first, last, 1, 0⟩ ∈ barredRuns →
      ¬ (first ≤ (c.toNat + r.shift).toNat ∧ (c.toNat + r.shift).toNat ≤ last) := by
    intro first last hmem
    have hoff := hnot _ hmem
    rwa [← Bool.not_eq_true, contains_iff_of_step_one] at hoff
  have hdotted := hbarred 0x130 0x130 (by simp [barredRuns])
  have hsigma := hbarred 0x3a3 0x3a3 (by simp [barredRuns])
  have hhalf := hbarred 0xd800 0xdfff (by simp [barredRuns])
  have hhigh := high_lt hr
  obtain ⟨-, hlast, -⟩ := CaseRun.contains_iff.mp hc
  have hcode : (Char.ofNat (c.toNat + r.shift).toNat).toNat = (c.toNat + r.shift).toNat := by
    apply toNat_ofNat
    rw [CaseRun.high] at hhigh
    omega
  refine ⟨List.cons_ne_nil _ _, ?_, ?_⟩
  · rw [List.forall_mem_singleton, IsLow, hcode]
    exact ⟨by omega, by omega, fun s hs => hnot s (List.mem_append_right _ hs)⟩
  · rw [List.forall_mem_singleton, not_isBlank_of_contains hr hc, ← Bool.not_eq_true, isBlank_iff, hcode]
    rintro ⟨s, hs, hblank⟩
    exact absurd hblank (by simp [hnot s (List.mem_append_left _ (List.mem_append_right _ hs))])

theorem lowers_self {c : Char} (h : IsLow c) : Lowers c [c] :=
  ⟨List.cons_ne_nil _ _, by simpa using h, by simp⟩

/-- What is written for a letter between others. -/
def lowered (before : List Char) (c : Char) (after : List Char) : List Char :=
  if c.toNat = 0x3a3 then
    [Char.ofNat (if nextIsCased before && !nextIsCased after then 0x3c2 else 0x3c3)]
  else lowerChar c

theorem lowerFrom_cons (before : List Char) (c : Char) (cs : List Char) :
    lowerFrom before (c :: cs) = lowered before c cs ++ lowerFrom (c :: before) cs := rfl

theorem lowered_of_isLow {c : Char} (h : IsLow c) (before after : List Char) :
    lowered before c after = [c] := by
  obtain ⟨hdotted, hsigma, hruns⟩ := h
  have hnone : caseRuns.find? (·.contains c.toNat) = none :=
    List.find?_eq_none.mpr fun r hr => by simp [hruns r hr]
  rw [lowered, if_neg hsigma, lowerChar, if_neg hdotted, hnone]

theorem lowers_lowered (before : List Char) (c : Char) (after : List Char) :
    Lowers c (lowered before c after) := by
  have hsigma : ∀ d ∈ [Char.ofNat 0x3c2, Char.ofNat 0x3c3], IsLow d ∧ isBlank d = false :=
    List.forall_mem_cons.mpr ⟨by decide +kernel, List.forall_mem_singleton.mpr (by decide +kernel)⟩
  have hdotted : ∀ d ∈ [Char.ofNat 0x69, Char.ofNat 0x307], IsLow d ∧ isBlank d = false :=
    List.forall_mem_cons.mpr ⟨by decide +kernel, List.forall_mem_singleton.mpr (by decide +kernel)⟩
  -- A letter with a rule of its own is no blank, and is not written as one.
  have hof : ∀ {n : Nat} {low : List Char}, c.toNat = n → isBlank (Char.ofNat n) = false → low ≠ [] →
      (∀ d ∈ low, IsLow d ∧ isBlank d = false) → Lowers c low := by
    intro n low hn hblank hne hlow
    rw [← hn, Char.ofNat_toNat] at hblank
    exact ⟨hne, fun d hd => (hlow d hd).1, fun d hd => by rw [(hlow d hd).2, hblank]⟩
  rw [lowered]
  split
  next hcode =>
    refine hof hcode (by decide) (List.cons_ne_nil _ _) fun d hd => hsigma d ?_
    rw [List.mem_singleton.mp hd]
    split <;> simp
  next hcode =>
    rw [lowerChar]
    split
    next hcode' => exact hof hcode' (by decide) (List.cons_ne_nil _ _) hdotted
    next hcode' =>
      split
      next r hfound =>
        have hcontains : r.contains c.toNat = true :=
          List.find?_some (p := fun r : CaseRun => r.contains c.toNat) hfound
        exact lowers_shifted (List.mem_of_find?_eq_some hfound) hcontains
      next hnone =>
        refine lowers_self ⟨hcode', hcode, fun r hr => ?_⟩
        simpa using List.find?_eq_none.mp hnone r hr

theorem isLow_of_mem_lowerFrom {before cs : List Char} {d : Char} (h : d ∈ lowerFrom before cs) :
    IsLow d := by
  induction cs generalizing before with
  | nil => cases h
  | cons c cs ih =>
      rw [lowerFrom_cons, List.mem_append] at h
      rcases h with h | h
      · exact (lowers_lowered before c cs).isLow d h
      · exact ih h

theorem lowerFrom_of_isLow {cs : List Char} (h : ∀ c ∈ cs, IsLow c) (before : List Char) :
    lowerFrom before cs = cs := by
  induction cs generalizing before with
  | nil => rfl
  | cons c cs ih =>
      obtain ⟨hc, hcs⟩ := List.forall_mem_cons.mp h
      rw [lowerFrom_cons, lowered_of_isLow hc, ih hcs, List.singleton_append]

theorem lower_lower (s : String) : lower (lower s) = lower s := by
  rw [lower, lower, String.toList_ofList, lowerFrom_of_isLow fun _ h => isLow_of_mem_lowerFrom h]

end Letters

section Ends

/-- There are no blanks at the ends. -/
def Trimmed (cs : List Char) : Prop :=
  cs.head?.any isBlank = false ∧ cs.getLast?.any isBlank = false

theorem head?_lowerFrom (before cs : List Char) :
    (lowerFrom before cs).head?.any isBlank = cs.head?.any isBlank := by
  cases cs with
  | nil => rfl
  | cons c cs =>
      have hlow := lowers_lowered before c cs
      obtain ⟨d, low, hd⟩ := List.exists_cons_of_ne_nil hlow.ne_nil
      rw [lowerFrom_cons, hd]
      exact hlow.isBlank d (by simp [hd])

theorem getLast?_lowerFrom (before cs : List Char) :
    (lowerFrom before cs).getLast?.any isBlank = cs.getLast?.any isBlank := by
  induction cs generalizing before with
  | nil => rfl
  | cons c cs ih =>
      rw [lowerFrom_cons, List.getLast?_append]
      cases cs with
      | nil =>
          have hlow := lowers_lowered before c []
          obtain ⟨low, d, hd⟩ := (List.eq_nil_or_concat _).resolve_left hlow.ne_nil
          rw [hd, List.concat_eq_append, lowerFrom, List.getLast?_nil, Option.none_or,
            List.getLast?_concat]
          exact hlow.isBlank d (by simp [hd])
      | cons c' cs =>
          -- The rest is not empty, so it has the last letter.
          have hrest := ih (c :: before)
          obtain ⟨d, hd⟩ : ∃ d, (lowerFrom (c :: before) (c' :: cs)).getLast? = some d := by
            rw [← Option.isSome_iff_exists, List.getLast?_isSome, lowerFrom_cons]
            simp [(lowers_lowered (c :: before) c' cs).ne_nil]
          rw [hd] at hrest
          rw [hd, Option.some_or, hrest, List.getLast?_cons_cons]

theorem trimmed_lower_iff {s : String} : Trimmed (lower s).toList ↔ Trimmed s.toList := by
  rw [lower, String.toList_ofList, Trimmed, Trimmed, head?_lowerFrom, getLast?_lowerFrom]

theorem dropWhile_of_head? {p : Char → Bool} {cs : List Char} (h : cs.head?.any p = false) :
    cs.dropWhile p = cs := by
  cases cs with
  | nil => rfl
  | cons c cs => exact List.dropWhile_cons_of_neg (by simpa using h)

theorem head?_dropWhile {p : Char → Bool} (cs : List Char) : (cs.dropWhile p).head?.any p = false := by
  have hnot := List.head?_dropWhile_not p cs
  cases hhead : (cs.dropWhile p).head? with
  | none => rfl
  | some c =>
      rw [hhead] at hnot
      simpa using hnot

theorem stripChars_pad {before cs after : List Char} (hbefore : ∀ c ∈ before, isBlank c = true)
    (hafter : ∀ c ∈ after, isBlank c = true) (h : Trimmed cs) :
    stripChars (before ++ cs ++ after) = cs := by
  rw [stripChars, List.append_assoc, List.dropWhile_append_of_pos hbefore]
  cases cs with
  | nil =>
      rw [List.nil_append, List.dropWhile_eq_nil_iff.mpr hafter]
      rfl
  | cons c cs =>
      have hhead : (c :: cs ++ after).head?.any isBlank = false := h.1
      have hlast : (c :: cs).reverse.head?.any isBlank = false := by
        rw [List.head?_reverse]
        exact h.2
      rw [dropWhile_of_head? hhead, List.reverse_append,
        List.dropWhile_append_of_pos fun d hd => hafter d (List.mem_reverse.mp hd),
        dropWhile_of_head? hlast, List.reverse_reverse]

theorem trimmed_stripChars (cs : List Char) : Trimmed (stripChars cs) := by
  have hend := head?_dropWhile (p := isBlank) (cs.dropWhile isBlank).reverse
  have hstart := head?_dropWhile (p := isBlank) cs
  have hsub : stripChars cs <+: cs.dropWhile isBlank := by
    rw [← List.reverse_suffix, stripChars, List.reverse_reverse]
    exact List.dropWhile_suffix isBlank
  refine ⟨?_, by rw [stripChars, List.getLast?_reverse]; exact hend⟩
  cases hstrip : stripChars cs with
  | nil => rfl
  | cons c rest =>
      obtain ⟨more, hmore⟩ := hsub
      rw [← hmore, hstrip] at hstart
      exact hstart

/-- A text is what is left of it with blanks around. -/
theorem exists_blanks (s : String) : ∃ before after : String,
    (∀ c ∈ before.toList, isBlank c = true) ∧ (∀ c ∈ after.toList, isBlank c = true) ∧
      s = before ++ strip s ++ after := by
  have hstart := List.takeWhile_append_dropWhile (p := isBlank) (l := s.toList)
  have hend := List.takeWhile_append_dropWhile (p := isBlank) (l := (s.toList.dropWhile isBlank).reverse)
  refine ⟨String.ofList (s.toList.takeWhile isBlank),
    String.ofList ((s.toList.dropWhile isBlank).reverse.takeWhile isBlank).reverse, ?_, ?_, ?_⟩
  · rw [String.toList_ofList]
    exact fun c hc => List.mem_takeWhile_imp hc
  · rw [String.toList_ofList]
    exact fun c hc => List.mem_takeWhile_imp (List.mem_reverse.mp hc)
  · rw [strip, stripChars, String.append_assoc, ← String.ofList_append, ← List.reverse_append, hend,
      List.reverse_reverse, ← String.ofList_append, hstart, String.ofList_toList]

theorem strip_pad {before text after : String} (hbefore : ∀ c ∈ before.toList, isBlank c = true)
    (hafter : ∀ c ∈ after.toList, isBlank c = true) (h : Trimmed text.toList) :
    strip (before ++ text ++ after) = text := by
  rw [strip, String.toList_append, String.toList_append, stripChars_pad hbefore hafter h,
    String.ofList_toList]

theorem strip_eq_self_iff {s : String} : strip s = s ↔ Trimmed s.toList := by
  constructor
  · intro h
    rw [← h, strip, String.toList_ofList]
    exact trimmed_stripChars s.toList
  · intro h
    have hpad : strip ("" ++ s ++ "") = s := strip_pad (by simp) (by simp) h
    rwa [String.empty_append, String.append_empty] at hpad

end Ends

end Pseudonym.Text
