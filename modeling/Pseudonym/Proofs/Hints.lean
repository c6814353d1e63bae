import Mathlib.Algebra.Group.Int.Defs
import Mathlib.Algebra.Group.Nat.Defs
import Pseudonym.Profile.Resolver
import Pseudonym.Proofs.Text.LowerCase
import Pseudonym.Proofs.Traversal

namespace Pseudonym

open Traversal

theorem Text.decimal?_eq_none_iff {n : Int} : decimal? n = none ↔ 10 ^ digitLimit ≤ n.natAbs := by
  have hlength := Nat.length_toDigits_le_iff (n := n.natAbs) (k := digitLimit) (b := 10)
    (by decide) (by decide)
  rw [decimal?, ← Nat.not_lt, ← hlength, Nat.not_le, ite_eq_left_iff]
  simp

theorem Value.display_int_eq_none_iff {n : Int} :
    (Value.int n).display = none ↔ 10 ^ Text.digitLimit ≤ n.natAbs := by
  rw [display, quoted]
  · exact Text.decimal?_eq_none_iff
  · exact fun _ h => Value.noConfusion h
  · exact fun _ h => Value.noConfusion h

theorem Profile.name_of_ofOptions {name : String} {options : Value} {p : Profile}
    (h : Profile.ofOptions name options = .ok p) : p.name = name := by
  obtain ⟨type, -, h⟩ := bind_eq_ok_iff.mp h
  obtain ⟨text, -, h⟩ := bind_eq_ok_iff.mp h
  obtain ⟨sourceType, -, h⟩ := bind_eq_ok_iff.mp h
  obtain ⟨listed, -, h⟩ := bind_eq_ok_iff.mp h
  obtain ⟨items, -, h⟩ := ite_bind_eq_ok_iff.mp h
  obtain ⟨plugins, -, h⟩ := bind_eq_ok_iff.mp h
  rw [← Except.ok.inj h]

theorem ProfileTable.lookup_insert (table : ProfileTable) (name other : String) (p : Profile) :
    (table.insert name p).lookup other = if other = name then some p else table.lookup other := by
  induction table with
  | nil =>
      by_cases hother : other = name
      · simp [insert, hother]
      · simp [insert, List.lookup_cons, hother, beq_false_of_ne hother]
  | cons e table ih =>
      obtain ⟨n, old⟩ := e
      rw [insert]
      by_cases hn : n = name
      · subst hn
        by_cases hother : other = n
        · simp [hother]
        · simp [List.lookup_cons, hother, beq_false_of_ne hother]
      · rw [if_neg hn, List.lookup_cons, List.lookup_cons, ih]
        by_cases hother : other = n
        · subst hother
          simp [hn]
        · simp [beq_false_of_ne hother]

namespace Resolver

variable {r : Resolver} {settings : Value} {name : String}

section Tables

/-- The entries that profiles are made of. -/
def listed (settings : Value) : Except Error (List (Key × Value)) := do
  let table ← Settings.entry settings.orEmpty "profiles" .null
  if table.truthy then Settings.entries table else pure builtinProfiles

theorem readProfiles_of_ofSection (h : ofSection settings = .ok r) :
    ∃ entries, listed settings = .ok entries ∧ readProfiles [] entries = .ok r.profiles := by
  obtain ⟨table, htable, h⟩ := bind_eq_ok_iff.mp h
  obtain ⟨entries, hentries, h⟩ := ite_bind_eq_ok_iff.mp h
  obtain ⟨profiles, hprofiles, h⟩ := bind_eq_ok_iff.mp h
  obtain ⟨defaultName, -, h⟩ := bind_eq_ok_iff.mp h
  obtain ⟨defaultText, -, h⟩ := bind_eq_ok_iff.mp h
  refine ⟨entries, bind_eq_ok_iff.mpr ⟨table, htable, hentries⟩, ?_⟩
  dsimp only at h
  split at h
  · cases h
  · obtain ⟨hint, -, h⟩ := bind_eq_ok_iff.mp h
    obtain ⟨text, -, h⟩ := bind_eq_ok_iff.mp h
    obtain ⟨policy, -, h⟩ := bind_eq_ok_iff.mp h
    obtain rfl := Except.ok.inj h
    exact hprofiles

/-- An entry whose name is another way to write a name. -/
def standsUnder (name : String) : Key × Value → Bool
  | (.text n, _) => Text.lower n = name
  | _ => false

def lastUnder (name : String) (entries : List (Key × Value)) : Option (Key × Value) :=
  entries.reverse.find? (standsUnder name)

theorem lastUnder_cons (name : String) (e : Key × Value) (entries : List (Key × Value)) :
    lastUnder name (e :: entries) =
      (lastUnder name entries).or (if standsUnder name e then some e else none) := by
  rw [lastUnder, lastUnder, List.reverse_cons, List.find?_append, List.find?_singleton]

/-- What stands under a name is made of the last entry for it, or was there before. -/
theorem lookup_readProfiles {table profiles : ProfileTable} {entries : List (Key × Value)}
    (h : readProfiles table entries = .ok profiles) (name : String) :
    (lastUnder name entries = none ∧ profiles.lookup name = table.lookup name) ∨
      ∃ key options p, lastUnder name entries = some (.text key, options) ∧ Text.lower key = name ∧
        Profile.ofOptions name options = .ok p ∧ profiles.lookup name = some p := by
  induction entries generalizing table with
  | nil =>
      obtain rfl := Except.ok.inj h
      exact .inl ⟨rfl, rfl⟩
  | cons e entries ih =>
      obtain ⟨key, options⟩ := e
      cases key with
      | text n =>
          obtain ⟨p, hp, hrest⟩ := bind_eq_ok_iff.mp h
          rw [lastUnder_cons]
          rcases ih hrest with ⟨hnone, hlookup⟩ | ⟨key, options', p', hlast, hkey, hp', hlookup⟩
          · rw [hnone, Option.none_or, standsUnder, hlookup, ProfileTable.lookup_insert]
            by_cases hn : Text.lower n = name
            · subst hn
              exact .inr ⟨n, options, p, by simp, rfl, hp, if_pos rfl⟩
            · exact .inl ⟨by simp [hn], if_neg (Ne.symm hn)⟩
          · -- A later entry for the name takes the place of this one.
            rw [hlast, Option.some_or]
            exact .inr ⟨key, options', p', rfl, hkey, hp', hlookup⟩
      | _ => cases h

end Tables

section Hints

/-- A hint that spells a name: in whatever case, and with blanks around it. -/
def Spells (name hint : String) : Prop :=
  ∃ before text after : String, (∀ c ∈ before.toList, Text.isBlank c = true) ∧
    (∀ c ∈ after.toList, Text.isBlank c = true) ∧ Text.lower text = name ∧
    hint = before ++ text ++ after

/-- A name that is not blank and has no blanks around it. -/
def Plain (name : String) : Prop := name ≠ "" ∧ Text.strip name = name

instance (name : String) : Decidable (Plain name) := inferInstanceAs (Decidable (_ ∧ _))

/-- A hint without a text is an error, and the only one. -/
theorem normalizeHint_of_display {hint : Value} (h : hint.display = none) :
    normalizeHint hint = .error (.value .tooManyDigits) := by
  cases hint with
  | null => cases h
  | _ => simp only [normalizeHint, Value.asText, h, Except.map]

theorem normalizeHint_eq {hint : Value} {text : String} (h : hint ≠ .null)
    (htext : hint.display = some text) :
    normalizeHint hint = .ok (if (Text.lower (Text.strip text)).isEmpty then none
      else some (Text.lower (Text.strip text))) := by
  cases hint with
  | null => exact absurd rfl h
  | _ => simp only [normalizeHint, Value.asText, htext, Except.map]

theorem normalizeHint_eq_error_iff {hint : Value} {e : Error} :
    normalizeHint hint = .error e ↔ hint.display = none ∧ e = .value .tooManyDigits := by
  constructor
  · intro h
    cases hdisplay : hint.display with
    | none =>
        rw [normalizeHint_of_display hdisplay] at h
        exact ⟨rfl, (Except.error.inj h).symm⟩
    | some text =>
        by_cases hnull : hint = .null
        · rw [hnull] at h
          cases h
        · rw [normalizeHint_eq hnull hdisplay] at h
          cases h
  · rintro ⟨hnone, rfl⟩
    exact normalizeHint_of_display hnone

theorem eq_lower_of_normalizeHint {hint : Value} (h : normalizeHint hint = .ok (some name)) :
    name ≠ "" ∧ ∃ text, hint.display = some text ∧ name = Text.lower (Text.strip text) := by
  by_cases hnull : hint = .null
  · rw [hnull] at h
    cases h
  · cases hdisplay : hint.display with
    | none =>
        rw [normalizeHint_of_display hdisplay] at h
        cases h
    | some text =>
        rw [normalizeHint_eq hnull hdisplay] at h
        split at h
        · cases h
        next hne =>
          obtain rfl := Option.some.inj (Except.ok.inj h)
          exact ⟨by simpa using hne, text, rfl, rfl⟩

theorem plain_of_normalizeHint {hint : Value} (h : normalizeHint hint = .ok (some name)) :
    Plain name := by
  obtain ⟨hne, text, -, rfl⟩ := eq_lower_of_normalizeHint h
  refine ⟨hne, ?_⟩
  rw [Text.strip_eq_self_iff, Text.trimmed_lower_iff, Text.strip, String.toList_ofList]
  exact Text.trimmed_stripChars text.toList

theorem normalizeHint_eq_some_iff {hint : String} :
    normalizeHint (.text hint) = .ok (some name) ↔ Plain name ∧ Spells name hint := by
  constructor
  · intro h
    obtain ⟨-, text, htext, hname⟩ := eq_lower_of_normalizeHint h
    obtain rfl := Option.some.inj htext
    obtain ⟨before, after, hbefore, hafter, hhint⟩ := Text.exists_blanks hint
    exact ⟨plain_of_normalizeHint h, before, Text.strip hint, after, hbefore, hafter, hname.symm,
      hhint⟩
  · rintro ⟨⟨hne, htrim⟩, before, text, after, hbefore, hafter, rfl, rfl⟩
    -- Blanks are taken off before the case is changed, so it is the text that has to have none.
    rw [Text.strip_eq_self_iff, Text.trimmed_lower_iff] at htrim
    rw [normalizeHint_eq Value.noConfusion rfl, Text.strip_pad hbefore hafter htrim,
      if_neg (by simpa using hne)]

theorem resolve_of_lookup {hint : Value} {p : Profile} (hhint : normalizeHint hint = .ok (some name))
    (hp : r.profiles.lookup name = some p) : r.resolve hint = (.ok p, []) := by
  rw [resolve, hhint]
  simp only [hp]

end Hints

theorem exists_lookup_of_mem_knownHints (h : name ∈ r.knownHints) :
    ∃ p, r.profiles.lookup name = some p := by
  rw [knownHints, List.mem_mergeSort, List.mem_map] at h
  obtain ⟨⟨n, p⟩, hmem, rfl⟩ := h
  cases hlookup : r.profiles.lookup n with
  | some q => exact ⟨q, rfl⟩
  | none => exact absurd (List.lookup_eq_none_iff.mp hlookup (n, p) hmem) (by simp)

/-- A known name leads to the profile that stands under it, in whatever case and with whatever blanks
around it, unless blanks are a part of the name: then nothing leads to it. -/
theorem resolve_known (h : ofSection settings = .ok r) (hname : name ∈ r.knownHints) :
    ∃ entries key options p, listed settings = .ok entries ∧
      lastUnder name entries = some (.text key, options) ∧ Text.lower key = name ∧
      Text.lower name = name ∧ Profile.ofOptions name options = .ok p ∧ p.name = name ∧
      r.profiles.lookup name = some p ∧
      (Plain name → ∀ hint, Spells name hint → r.resolve (.text hint) = (.ok p, [])) ∧
      (¬ Plain name → ∀ hint, normalizeHint hint ≠ .ok (some name)) := by
  obtain ⟨entries, hentries, hprofiles⟩ := readProfiles_of_ofSection h
  obtain ⟨q, hq⟩ := exists_lookup_of_mem_knownHints hname
  rcases lookup_readProfiles hprofiles name with
    ⟨-, hnone⟩ | ⟨key, options, p, hlast, hkey, hp, hlookup⟩
  · cases hnone.symm.trans hq
  · refine ⟨entries, key, options, p, hentries, hlast, hkey, ?_, hp, Profile.name_of_ofOptions hp,
      hlookup, fun hplain hint hspells => ?_, fun hplain hint hhint => ?_⟩
    · rw [← hkey, Text.lower_lower]
    · exact resolve_of_lookup (normalizeHint_eq_some_iff.mpr ⟨hplain, hspells⟩) hlookup
    · exact hplain (plain_of_normalizeHint hhint)

theorem exists_of_any {x : Except Error Resolver} {p : Resolver → Bool}
    (h : x.toOption.any p = true) : ∃ r, x = .ok r ∧ p r = true := by
  cases x with
  | error e => cases h
  | ok r => exact ⟨r, rfl, h⟩

/-- Two ways to write one name, of which the first ends in a capital sigma. -/
def greekNames : Value :=
  .ofPairs [("default_profile", .text "Plain"),
    ("profiles", .ofPairs [("ΟΔΟΣ", .map []), ("PLAIN", .map []),
      ("οδος", .ofPairs [("source_type", .text "script")])])]

theorem resolve_known_greek :
    ∃ r p, ofSection greekNames = .ok r ∧ "οδος" ∈ r.knownHints ∧ p.name = "οδος" ∧
      r.resolve (.text "οδος") = (.ok p, []) ∧ r.resolve (.text "\u00a0ΟΔΟΣ\t") = (.ok p, []) := by
  obtain ⟨r, hr, hkeys⟩ := exists_of_any (x := ofSection greekNames)
    (p := fun r => r.profiles.map (·.1) = ["οδος", "plain"]) (by decide +kernel)
  have hknown : "οδος" ∈ r.knownHints := by
    rw [knownHints, List.mem_mergeSort, of_decide_eq_true hkeys]
    exact List.mem_cons_self
  obtain ⟨-, -, -, p, -, -, -, hlower, -, hp, -, hfound, -⟩ := resolve_known hr hknown
  have hplain : Plain "οδος" := by decide
  refine ⟨r, p, hr, hknown, hp, hfound hplain _ ⟨"", "οδος", "", by simp, by simp, hlower, rfl⟩, ?_⟩
  exact hfound hplain _ ⟨"\u00a0", "ΟΔΟΣ", "\t", List.all_eq_true.mp (by decide),
    List.all_eq_true.mp (by decide), by decide +kernel, rfl⟩

def blankedNames : Value :=
  .ofPairs [("profiles", .ofPairs [("module", .map []), (" x", .map [])])]

/-- A name with a blank in front is known, and turned down. -/
theorem resolve_blanked :
    ∃ r p, ofSection blankedNames = .ok r ∧ " x" ∈ r.knownHints ∧ r.profiles.lookup " x" = some p ∧
      (r.resolve (.text " x")).1 = .error (.request (.unknownHint " x")) := by
  obtain ⟨r, hr, hkeys⟩ := exists_of_any (x := ofSection blankedNames)
    (p := fun r => r.profiles.map (·.1) = ["module", " x"] ∧ r.profiles.lookup "x" = none ∧
      r.policy = .reject) (by decide +kernel)
  obtain ⟨hkeys, hnone, hpolicy⟩ := of_decide_eq_true hkeys
  have hknown : " x" ∈ r.knownHints := by
    rw [knownHints, List.mem_mergeSort, hkeys]
    simp
  obtain ⟨p, hp⟩ := exists_lookup_of_mem_knownHints hknown
  have hhint : normalizeHint (.text " x") = .ok (some "x") := by decide +kernel
  refine ⟨r, p, hr, hknown, hp, ?_⟩
  rw [resolve, hhint]
  simp only [hnone, hpolicy]
  rfl

end Resolver

end Pseudonym
