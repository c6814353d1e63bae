import Mathlib.Data.List.Infix
import Mathlib.Data.List.Lex
import Mathlib.Data.List.Sort
import Mathlib.Data.Set.List
import Mathlib.Data.String.Basic
import Pseudonym.Files.Pattern
import Pseudonym.Proofs.Files.Locations

namespace Pseudonym.Files

open Text (Bytes)

def Content.isSecond : Content → Bool
  | .sameAs _ => true
  | _ => false

namespace Disk

variable {d d' : Disk}

/-- Where the file of a place is: at its first name. -/
def home (d : Disk) (place : Place) : Place :=
  match d.pointer? place with
  | some (.sameAs first) => first
  | _ => place

/-- The bytes of the file that has a name at a place. -/
def bytesAt? (d : Disk) (place : Place) : Option Bytes :=
  match d.get? (d.home place) with
  | some (.file bytes) => some bytes
  | _ => none

theorem bytesAt?_eq_some_iff {place : Place} {bytes : Bytes} :
    d.bytesAt? place = some bytes ↔ d.get? (d.home place) = some (.file bytes) := by
  rw [bytesAt?]
  cases d.get? (d.home place) with
  | none => simp
  | some c => cases c <;> simp

theorem home_of_folder {place : Place} (h : d.get? place = some .folder) : d.home place = place := by
  rw [home, pointer?_eq_none_of h rfl]

theorem Keeps.home (h : d.Keeps d') (place : Place) : d'.home place = d.home place := by
  rw [Disk.home, h.pointers, Disk.home]

theorem Keeps.bytesAt? (h : d.Keeps d') {place : Place} (hgrown : d.Grown d' (d.home place)) :
    d'.bytesAt? place = d.bytesAt? place := by
  ext bytes
  rw [bytesAt?_eq_some_iff, bytesAt?_eq_some_iff, h.home, hgrown.file_iff]

/-- A disk that is a tree: things have names, each place is taken once, what lies somewhere lies in
a folder, and a second name is one of a file. -/
structure Sound (d : Disk) : Prop where
  here : d.get? d.here = some .folder
  names : ∀ e ∈ d.entries, e.1 ≠ [] ∧ ∀ name ∈ e.1, IsName name
  distinct : (d.entries.map (·.1)).Nodup
  parents : ∀ e ∈ d.entries, d.get? e.1.dropLast = some .folder
  seconds : ∀ e ∈ d.entries, e.2.isSecond = true → (d.bytesAt? e.1).isSome = true

instance (d : Disk) : Decidable d.Sound :=
  decidable_of_iff (d.get? d.here = some .folder ∧
      (∀ e ∈ d.entries, e.1 ≠ [] ∧ ∀ name ∈ e.1, IsName name) ∧ (d.entries.map (·.1)).Nodup ∧
      (∀ e ∈ d.entries, d.get? e.1.dropLast = some .folder) ∧
      ∀ e ∈ d.entries, e.2.isSecond = true → (d.bytesAt? e.1).isSome = true)
    ⟨fun ⟨h, n, s, p, t⟩ => ⟨h, n, s, p, t⟩, fun ⟨h, n, s, p, t⟩ => ⟨h, n, s, p, t⟩⟩

namespace Sound

variable {place parts : List String} {c : Content}

theorem lookup_eq_some_iff {entries : List (Place × Content)} (h : (entries.map (·.1)).Nodup) :
    entries.lookup place = some c ↔ (place, c) ∈ entries := by
  induction entries with
  | nil => simp
  | cons e entries ih =>
      obtain ⟨p, c'⟩ := e
      obtain ⟨hp, hentries⟩ := List.nodup_cons.mp h
      by_cases hplace : place = p
      · subst hplace
        have hnot : (place, c) ∉ entries := fun hmem =>
          hp (List.mem_map.mpr ⟨_, hmem, rfl⟩)
        simp [hnot, eq_comm]
      · simp [List.lookup_cons, beq_false_of_ne hplace, ih hentries, hplace]

theorem get?_eq_some_iff (h : d.Sound) (hplace : place ≠ []) :
    d.get? place = some c ↔ (place, c) ∈ d.entries := by
  have hempty : ¬ place.isEmpty = true := by simpa using hplace
  rw [get?, if_neg hempty, lookup_eq_some_iff h.distinct]

theorem isName (h : d.Sound) (hget : d.get? place = some c) : ∀ name ∈ place, IsName name := by
  by_cases hplace : place = []
  · subst hplace
    simp
  · exact (h.names _ ((h.get?_eq_some_iff hplace).mp hget)).2

theorem dropLast (h : d.Sound) (hget : d.get? place = some c) :
    d.get? place.dropLast = some .folder := by
  by_cases hplace : place = []
  · subst hplace
    rfl
  · exact h.parents _ ((h.get?_eq_some_iff hplace).mp hget)

/-- What lies below a place lies in a folder there. -/
theorem isFolder (h : d.Sound) (hne : parts ≠ []) (hget : d.get? (place ++ parts) = some c) :
    d.get? place = some .folder := by
  induction parts using List.reverseRecOn generalizing c with
  | nil => exact absurd rfl hne
  | append_singleton parts part ih =>
      have hparent := h.dropLast hget
      rw [← List.append_assoc, List.dropLast_concat] at hparent
      by_cases hparts : parts = []
      · rwa [hparts, List.append_nil] at hparent
      · exact ih hparts hparent

theorem exists_of_bytesAt? {bytes : Bytes} (hbytes : d.bytesAt? place = some bytes) :
    ∃ c, d.get? place = some c := by
  cases hpointer : d.pointer? place with
  | some c => exact ⟨c, (pointer?_eq_some_iff.mp hpointer).1⟩
  | none =>
      rw [bytesAt?_eq_some_iff, home, hpointer] at hbytes
      exact ⟨_, hbytes⟩

theorem exists_bytesAt? (h : d.Sound) {first : Place} (hget : d.get? place = some (.sameAs first)) :
    ∃ bytes, d.bytesAt? place = some bytes := by
  have hne : place ≠ [] := by
    rintro rfl
    cases hget
  exact Option.isSome_iff_exists.mp (h.seconds _ ((h.get?_eq_some_iff hne).mp hget) rfl)

/-- What has a second name is a file, wherever the name leads. -/
theorem get?_home (h : d.Sound) (place : Place) :
    d.get? (d.home place) = d.get? place ∨ ∃ first bytes, d.get? place = some (.sameAs first) ∧
      d.get? (d.home place) = some (.file bytes) := by
  cases hpointer : d.pointer? place with
  | none => exact .inl (by rw [home, hpointer])
  | some c =>
      cases c with
      | sameAs first =>
          have hget := (pointer?_eq_some_iff.mp hpointer).1
          obtain ⟨bytes, hbytes⟩ := h.exists_bytesAt? hget
          exact .inr ⟨first, bytes, hget, bytesAt?_eq_some_iff.mp hbytes⟩
      | _ => exact .inl (by rw [home, hpointer])

/-- The names of something lead to it, through folders. -/
theorem follow (h : d.Sound) (hget : d.get? (place ++ parts) = some c)
    (hlink : ∀ target, c ≠ .link target) (hne : parts ≠ []) (left : Nat) :
    d.follow left place parts = .ok (d.home (place ++ parts), left) := by
  induction parts generalizing place with
  | nil => exact absurd rfl hne
  | cons part parts ih =>
      have hname : IsName part := h.isName hget part (by simp)
      have hfolder := h.isFolder (List.cons_ne_nil _ _) hget
      have hassoc : place ++ part :: parts = place ++ [part] ++ parts := by simp
      rw [hassoc] at hget ⊢
      by_cases hparts : parts = []
      · subst hparts
        rw [List.append_nil] at hget ⊢
        rw [follow_cons, if_pos hfolder, step_of_isName hname, home, pointer?, hget]
        cases c with
        | link target => exact absurd rfl (hlink target)
        | _ => exact follow_nil _ _ _
      · have hplain := pointer?_eq_none_of (h.isFolder hparts hget) rfl
        rw [follow_of_plain hfolder (step_of_isName hname place ▸ hplain), step_of_isName hname]
        exact ih hget hparts

theorem set_folder (h : d.Sound) {parent : Place} {name : String} (hname : IsName name)
    (hparent : d.get? parent = some .folder) (hnone : d.get? (parent ++ [name]) = none) :
    (d.set (parent ++ [name]) .folder).Sound := by
  have hne : parent ++ [name] ≠ [] := by simp
  have hplace : d.get? (parent ++ [name]) ≠ some .folder := by simp [hnone]
  have hkeeps := Keeps.set hplace (pointer?_of_vacant hnone) (c := .folder) rfl
  have hlookup : d.entries.lookup (parent ++ [name]) = none := by simpa [get?] using hnone
  have hentries : (d.set (parent ++ [name]) .folder).entries =
      d.entries ++ [(parent ++ [name], .folder)] := by simp [set, hlookup]
  refine ⟨?_, ?_, ?_, ?_, ?_⟩
  · rw [here_set]
    exact hkeeps.folders _ h.here
  · rw [hentries]
    refine List.forall_mem_append.mpr ⟨h.names, fun e he => ?_⟩
    rw [List.mem_singleton.mp he]
    refine ⟨hne, List.forall_mem_append.mpr ⟨h.isName hparent, by simpa using hname⟩⟩
  · rw [hentries, List.map_append]
    refine h.distinct.append (List.nodup_singleton _) ?_
    intro p hp hsame
    obtain ⟨e, he, rfl⟩ := List.mem_map.mp hp
    have hp := List.mem_singleton.mp hsame
    have hnot := List.lookup_eq_none_iff.mp hlookup e he
    simp [hp] at hnot
  · rw [hentries]
    refine List.forall_mem_append.mpr ⟨fun e he => hkeeps.folders _ (h.parents e he), fun e he => ?_⟩
    rw [List.mem_singleton.mp he]
    simpa using hkeeps.folders _ hparent
  · rw [hentries]
    refine List.forall_mem_append.mpr ⟨fun e he hsecond => ?_, fun e he hsecond => ?_⟩
    · rw [hkeeps.bytesAt? (grown_set hnone _)]
      exact h.seconds e he hsecond
    · rw [List.mem_singleton.mp he] at hsecond
      cases hsecond

theorem makeFolder (h : d.Sound) {path : String} (hmade : d.makeFolder path = .ok d') : d'.Sound := by
  obtain ⟨place, hentry, hnone, rfl⟩ := makeFolder_cases hmade
  have hlocate := locate_of_entryOf hentry (pointer?_of_vacant hnone)
  obtain ⟨parent, left, last, hends⟩ := exists_ends hlocate (by simp [hnone])
  obtain rfl := Except.ok.inj (hentry.symm.trans hends.entryOf_eq)
  have hup : last ≠ ".." := by
    rintro rfl
    have hparent := h.dropLast hends.isFolder
    rw [show step parent ".." = parent.dropLast from rfl, hparent] at hnone
    cases hnone
  have hname : IsName last := ⟨hends.part, hends.ne_dot, hup⟩
  rw [step_of_isName hname] at hnone ⊢
  exact h.set_folder hname hends.isFolder hnone

theorem ensureFolders (h : d.Sound) (path : String) : (d.ensureFolders path).1.Sound :=
  ensureFoldersUpTo_induct (P := Sound) (fun _ _ _ h => h.makeFolder) h path _

theorem mem_children_iff (h : d.Sound) {name : String} :
    name ∈ d.children place ↔ ∃ c, d.get? (place ++ [name]) = some c := by
  simp only [h.get?_eq_some_iff (List.append_ne_nil_of_right_ne_nil _ (List.cons_ne_nil name [])),
    children, List.mem_filterMap]
  constructor
  · rintro ⟨⟨p, c⟩, hmem, hsome⟩
    obtain ⟨init, last, rfl⟩ := (List.eq_nil_or_concat p).resolve_left (h.names _ hmem).1
    rw [List.concat_eq_append] at hmem hsome
    simp only [List.getLast?_append, List.getLast?_singleton, Option.some_or, List.dropLast_concat] at hsome
    split at hsome
    next hinit =>
      obtain rfl := Option.some.inj hsome
      rw [hinit] at hmem
      exact ⟨c, hmem⟩
    next => cases hsome
  · rintro ⟨c, hmem⟩
    exact ⟨_, hmem, by simp⟩

theorem mem_foldersBelow_iff (h : d.Sound) (hplace : d.get? place = some .folder) :
    parts ∈ d.foldersBelow place ↔ d.get? (place ++ parts) = some .folder := by
  by_cases hparts : parts = []
  · subst hparts
    simp [foldersBelow, hplace]
  · rw [h.get?_eq_some_iff (by simp [hparts]), foldersBelow, List.mem_cons, List.mem_filterMap]
    constructor
    · rintro (hnil | ⟨⟨p, c⟩, hmem, hsome⟩)
      · exact absurd hnil hparts
      · simp only [Bool.and_eq_true, decide_eq_true_eq, List.isPrefixOf_iff_prefix] at hsome
        split at hsome
        next hbelow =>
          obtain ⟨⟨rfl, rest, rfl⟩, -⟩ := hbelow
          rw [List.drop_left] at hsome
          rwa [Option.some.inj hsome] at hmem
        next => cases hsome
    · intro hmem
      have hlength := List.length_pos_iff.mpr hparts
      exact .inr ⟨_, hmem, by simp [hlength]⟩

end Sound

end Disk

namespace Path

theorem ne_dot_of_mem_parts {path part : String} (h : part ∈ (ofText path).parts) : part ≠ "." := by
  rw [parts_ofText] at h
  exact of_decide_eq_true (List.mem_filter.mp h).2

theorem below_nil (p : Path) : p.below [] = p := by
  rw [below, List.append_nil]

theorem below_below (p : Path) (parts parts' : List String) :
    (p.below parts).below parts' = p.below (parts ++ parts') := by
  rw [below, below, below, List.append_assoc]

theorem below_injective (p : Path) : Function.Injective p.below := by
  intro parts parts' h
  exact List.append_cancel_left (congrArg Path.parts h)

theorem Clean.below {p : Path} (h : p.Clean) {parts : List String}
    (hparts : ∀ part ∈ parts, IsPart part) : (p.below parts).Clean :=
  ⟨h.root, List.forall_mem_append.mpr ⟨h.parts, hparts⟩⟩

end Path

namespace Selector

open Traversal

/-- Whether the parts of a file have the shape of a pattern. Folders that may be left out have to be
followed by something. -/
def fit : List Selector → List String → Bool
  | [], parts => parts.isEmpty
  | .done :: _, _ => false
  | .named name :: rest, part :: parts => name = part && fit rest parts
  | .shaped pieces :: rest, part :: parts => fits pieces part.toList && fit rest parts
  | [.folders], _ => false
  | .folders :: s :: rest, parts => parts.tails.any fun parts => fit (s :: rest) parts
  | _ :: _, [] => false

theorem fit_nil {selectors : List Selector} (h : selectors ≠ []) : fit selectors [] = false := by
  induction selectors with
  | nil => exact absurd rfl h
  | cons s selectors ih =>
      cases s with
      | folders =>
          cases selectors with
          | nil => simp [fit]
          | cons t rest => simpa [fit] using ih (List.cons_ne_nil t rest)
      | named name => simp [fit]
      | shaped pieces => simp [fit]
      | done => simp [fit]

theorem ne_nil_of_fit {selectors : List Selector} {parts : List String} (h : selectors ≠ [])
    (hfit : fit selectors parts = true) : parts ≠ [] := by
  rintro rfl
  rw [fit_nil h] at hfit
  cases hfit

/-- What a part of a pattern can stand for. -/
def Takes : Selector → List String → Prop
  | .folders, _ => True
  | .named name, parts => parts = [name]
  | .shaped pieces, parts => ∃ name, parts = [name] ∧ fits pieces name.toList = true
  | .done, _ => False

theorem fit_cons_iff {s : Selector} {rest : List Selector} {parts : List String} :
    fit (s :: rest) parts = true ↔ (s = .folders → rest ≠ []) ∧
      ∃ first more, parts = first ++ more ∧ s.Takes first ∧ fit rest more = true := by
  cases s with
  | done => simp [fit, Takes]
  | named name =>
      cases parts with
      | nil => simp [fit, Takes]
      | cons part parts =>
          simp only [fit, Takes, Bool.and_eq_true, decide_eq_true_eq, reduceCtorEq, false_implies,
            true_and]
          constructor
          · rintro ⟨rfl, hfit⟩
            exact ⟨[name], parts, rfl, rfl, hfit⟩
          · rintro ⟨first, more, hparts, rfl, hfit⟩
            obtain ⟨rfl, rfl⟩ := List.cons.inj hparts
            exact ⟨rfl, hfit⟩
  | shaped pieces =>
      cases parts with
      | nil => simp [fit, Takes]
      | cons part parts =>
          simp only [fit, Takes, Bool.and_eq_true, reduceCtorEq, false_implies, true_and]
          constructor
          · rintro ⟨hpart, hfit⟩
            exact ⟨[part], parts, rfl, ⟨part, rfl, hpart⟩, hfit⟩
          · rintro ⟨first, more, hparts, ⟨name, rfl, hname⟩, hfit⟩
            obtain ⟨rfl, rfl⟩ := List.cons.inj hparts
            exact ⟨hname, hfit⟩
  | folders =>
      cases rest with
      | nil => simp [fit]
      | cons t rest =>
          rw [fit, List.any_eq_true]
          simp only [List.mem_tails, Takes, true_and, ne_eq, reduceCtorEq, not_false_eq_true,
            implies_true]
          constructor
          · rintro ⟨more, ⟨first, hfirst⟩, hfit⟩
            exact ⟨first, more, hfirst.symm, hfit⟩
          · rintro ⟨first, more, rfl, hfit⟩
            exact ⟨more, List.suffix_append first more, hfit⟩

/-- A pattern that never leads up again. -/
def Downward (selectors : List Selector) : Prop :=
  ∀ name, Selector.named name ∈ selectors → IsName name

theorem Downward.tail {s : Selector} {rest : List Selector} (h : Downward (s :: rest)) :
    Downward rest := fun name hname => h name (List.mem_cons_of_mem s hname)

theorem named_of_ofPart {part name : String} (h : ofPart part = .ok (.named name)) : name = part := by
  unfold ofPart at h
  split at h
  · cases h
  · split at h
    · cases h
    · split at h
      · cases h
      · exact (Selector.named.inj (Except.ok.inj h)).symm

theorem downward_ofPattern {recursive : Bool} {pattern : String} {selectors : List Selector}
    (h : ofPattern recursive pattern = .ok selectors) (hup : ".." ∉ (Path.ofText pattern).parts) :
    Downward selectors := by
  unfold ofPattern at h
  obtain ⟨-, h⟩ := when_seq_eq_ok_iff.mp h
  obtain ⟨-, h⟩ := when_seq_eq_ok_iff.mp h
  obtain ⟨named, hnamed, h⟩ := bind_eq_ok_iff.mp h
  obtain ⟨-, h⟩ := when_seq_eq_ok_iff.mp h
  obtain rfl := Except.ok.inj h
  intro name hname
  have hmem : Selector.named name ∈ named := by
    rcases List.mem_append.mp hname with hname | hname
    · rcases List.mem_append.mp hname with hname | hname
      · split at hname <;> simp at hname
      · exact hname
    · split at hname <;> simp at hname
  obtain ⟨part, hpart, hof⟩ := forall₂_exists_left ((mapM_eq_ok_iff _ _ _).mp hnamed) hmem
  obtain rfl := named_of_ofPart hof
  exact ⟨(Path.clean_ofText pattern).parts name hpart, Path.ne_dot_of_mem_parts hpart,
    fun h => hup (h ▸ hpart)⟩

/-- Whether the parts of a file have the shape of a pattern, in the folder itself or at any depth. -/
def suits (recursive : Bool) (pattern : Value) (parts : List String) : Bool :=
  match pattern with
  | .text pattern =>
      match ofPattern recursive pattern with
      | .ok selectors => fit selectors parts
      | .error _ => false
  | _ => false

end Selector

namespace Disk

open Selector

variable {d : Disk}

theorem locate_below_of_get? (hd : d.Sound) {p : Path} (hp : p.Clean) {place : Place}
    (hlocate : d.locate p.text = .ok place) (hfolder : d.get? place = some .folder)
    {parts : List String} {c : Content} (hget : d.get? (place ++ parts) = some c)
    (hlink : ∀ target, c ≠ .link target) :
    d.locate (p.below parts).text = .ok (d.home (place ++ parts)) := by
  by_cases hne : parts = []
  · subst hne
    rwa [Path.below_nil, List.append_nil, home_of_folder hfolder]
  · have hparts : ∀ part ∈ parts, IsPart part := fun part hpart =>
      (hd.isName hget part (List.mem_append_right _ hpart)).1
    obtain ⟨left, hbelow⟩ := locate_below hp hlocate
    rw [hbelow parts hparts hne, hd.follow hget hlink hne]
    rfl

/-- A name below a folder is there if something lies at its place. -/
theorem find?_below {p : Path} (hp : p.Clean) {place : Place}
    (hlocate : d.locate p.text = .ok place) (hfolder : d.get? place = some .folder) {name : String}
    (hname : IsName name) (hlink : ∀ target, d.get? (place ++ [name]) ≠ some (.link target)) :
    d.find? (p.below [name]).text = d.get? (d.home (place ++ [name])) := by
  obtain ⟨left, hbelow⟩ := locate_below hp hlocate
  have hfollow : d.follow left place [name] = .ok (d.home (place ++ [name]), left) := by
    rw [follow_cons, if_pos hfolder, step_of_isName hname, home]
    cases hpointer : d.pointer? (place ++ [name]) with
    | none => exact follow_nil _ _ _
    | some c =>
        cases c with
        | link target => exact absurd (pointer?_eq_some_iff.mp hpointer).1 (hlink target)
        | _ => exact follow_nil _ _ _
  rw [find?, hbelow [name] (by simpa using hname.1) (by simp), hfollow]
  rfl

theorem isFile_iff_bytesAt? {path : String} {place : Place} (h : d.locate path = .ok (d.home place)) :
    d.isFile path = true ↔ ∃ bytes, d.bytesAt? place = some bytes := by
  rw [isFile_iff]
  simp [bytesAt?_eq_some_iff, h]

theorem childrenAt_eq {p : Path} {place : Place} (hlocate : d.locate p.text = .ok place)
    (hfolder : d.get? place = some .folder) : d.childrenAt p = d.children place := by
  simp [childrenAt, hlocate, hfolder]

theorem foldersAt_eq {p : Path} {place : Place} (hlocate : d.locate p.text = .ok place)
    (hfolder : d.get? place = some .folder) : d.foldersAt p = d.foldersBelow place := by
  simp [foldersAt, hlocate, hfolder]

/-- No link stands at a place or below it. -/
def Unlinked (d : Disk) (place : Place) : Prop := ∀ parts target, d.get? (place ++ parts) ≠ some (.link target)

theorem Unlinked.append {place : Place} (h : d.Unlinked place) (parts : List String) :
    d.Unlinked (place ++ parts) := by
  intro more target
  rw [List.append_assoc]
  exact h _ _

theorem Keeps.unlinked {d' : Disk} (h : d.Keeps d') {place : Place} (hlinks : d.Unlinked place) :
    d'.Unlinked place := by
  intro parts target hlink
  have hpointer := pointer?_eq_some_iff.mpr ⟨hlink, rfl⟩
  rw [h.pointers] at hpointer
  exact hlinks parts target (pointer?_eq_some_iff.mp hpointer).1

section Search

variable {p : Path} {place : Place}

theorem goes_iff (hd : d.Sound) (hp : p.Clean) (hlocate : d.locate p.text = .ok place)
    (hfolder : d.get? place = some .folder) (hlinks : d.Unlinked place) {name : String}
    (hname : IsName name) (rest : List Selector) :
    (if rest.isEmpty then d.isThere (p.below [name]).text else d.isFolder (p.below [name]).text) = true ↔
      ∃ c, d.get? (place ++ [name]) = some c ∧ (rest ≠ [] → c = .folder) := by
  rw [isThere, isFolder, find?_below hp hlocate hfolder hname (hlinks [name])]
  rcases hd.get?_home (place ++ [name]) with hsame | ⟨first, bytes, hsecond, hfile⟩
  · rw [hsame]
    cases rest <;> cases d.get? (place ++ [name]) <;> simp
  · rw [hfile, hsecond]
    cases rest <;> simp

/-- One step of the search: down to something that the first part of the pattern stands for. -/
theorem mem_select_cons_iff (hd : d.Sound) {s : Selector} {rest : List Selector} (hs : s ≠ .done)
    (hdown : Downward (s :: rest)) (hp : p.Clean) (hlocate : d.locate p.text = .ok place)
    (hfolder : d.get? place = some .folder) (hlinks : d.Unlinked place) {q : Path} :
    q ∈ d.select p (s :: rest) ↔ ∃ first c, s.Takes first ∧ d.get? (place ++ first) = some c ∧
      (rest ≠ [] ∨ s = .folders → c = .folder) ∧ q ∈ d.select (p.below first) rest := by
  cases s with
  | done => exact absurd rfl hs
  | named name =>
      have hselect : d.select p (.named name :: rest) =
          if (if rest.isEmpty then d.isThere (p.below [name]).text
            else d.isFolder (p.below [name]).text) = true then d.select (p.below [name]) rest
          else [] := rfl
      rw [hselect, List.mem_ite_nil_right,
        goes_iff hd hp hlocate hfolder hlinks (hdown name List.mem_cons_self)]
      constructor
      · rintro ⟨⟨c, hget, hc⟩, hq⟩
        exact ⟨[name], c, rfl, hget, fun h => hc (h.resolve_right (by simp)), hq⟩
      · rintro ⟨first, c, rfl, hget, hc, hq⟩
        exact ⟨⟨c, hget, fun h => hc (.inl h)⟩, hq⟩
  | shaped pieces =>
      rw [select, childrenAt_eq hlocate hfolder, List.mem_flatMap]
      -- Where more follows, what has the shape has to be a folder.
      have hgoes : ∀ name c, d.get? (place ++ [name]) = some c →
          ((rest.isEmpty || d.isFolder (p.below [name]).text) = true ↔ (rest ≠ [] → c = .folder)) := by
        intro name c hget
        have hname : IsName name := hd.isName hget name (by simp)
        have hiff := goes_iff hd hp hlocate hfolder hlinks hname rest
        by_cases hrest : rest = []
        · simp [hrest]
        · simpa [hrest, hget] using hiff
      constructor
      · rintro ⟨name, hmem, hq⟩
        obtain ⟨hchild, hfits⟩ := List.mem_filter.mp hmem
        obtain ⟨hfits, hmore⟩ := (Bool.and_eq_true _ _).mp hfits
        obtain ⟨c, hget⟩ := hd.mem_children_iff.mp hchild
        exact ⟨[name], c, ⟨name, rfl, hfits⟩, hget,
          fun h => (hgoes name c hget).mp hmore (h.resolve_right (by simp)), hq⟩
      · rintro ⟨first, c, ⟨name, rfl, hfits⟩, hget, hc, hq⟩
        refine ⟨name, List.mem_filter.mpr ⟨hd.mem_children_iff.mpr ⟨c, hget⟩, ?_⟩, hq⟩
        exact (Bool.and_eq_true _ _).mpr ⟨hfits, (hgoes name c hget).mpr fun h => hc (.inl h)⟩
  | folders =>
      rw [select, foldersAt_eq hlocate hfolder, List.mem_flatMap]
      constructor
      · rintro ⟨parts, hmem, hq⟩
        exact ⟨parts, .folder, trivial, (hd.mem_foldersBelow_iff hfolder).mp hmem, fun _ => rfl, hq⟩
      · rintro ⟨parts, c, -, hget, hc, hq⟩
        rw [hc (.inr rfl)] at hget
        exact ⟨parts, (hd.mem_foldersBelow_iff hfolder).mpr hget, hq⟩

/-- The search finds the files below a path that have the shape of the pattern, and no others. -/
theorem mem_select_iff (hd : d.Sound) {selectors : List Selector} (hdown : Downward selectors)
    (hp : p.Clean) (hlocate : d.locate p.text = .ok (d.home place)) (hlinks : d.Unlinked place)
    (hfolder : selectors ≠ [] → d.get? place = some .folder) {q : Path} :
    (q ∈ d.select p selectors ∧ d.isFile q.text = true) ↔
      ∃ parts, q = p.below parts ∧ fit selectors parts = true ∧
        ∃ bytes, d.bytesAt? (place ++ parts) = some bytes := by
  induction selectors generalizing p place with
  | nil =>
      rw [select, List.mem_singleton]
      constructor
      · rintro ⟨rfl, hfile⟩
        refine ⟨[], (Path.below_nil q).symm, rfl, ?_⟩
        rw [List.append_nil]
        exact (isFile_iff_bytesAt? hlocate).mp hfile
      · rintro ⟨parts, rfl, hfit, hget⟩
        obtain rfl : parts = [] := by simpa [fit] using hfit
        rw [List.append_nil] at hget
        rw [Path.below_nil]
        exact ⟨rfl, (isFile_iff_bytesAt? hlocate).mpr hget⟩
  | cons s rest ih =>
      have hfolder := hfolder (List.cons_ne_nil s rest)
      have hplace : d.locate p.text = .ok place := hlocate.trans (by rw [home_of_folder hfolder])
      by_cases hs : s = .done
      · subst hs
        have hnot : ¬ d.isFile p.text = true := by
          rw [isFile_iff]
          simp [hplace, hfolder]
        rw [select, List.mem_singleton]
        constructor
        · rintro ⟨rfl, hfile⟩
          exact absurd hfile hnot
        · rintro ⟨parts, -, hfit, -⟩
          simp [fit] at hfit
      -- What is found from a place below is found below that place.
      have hbelow : ∀ first c, d.get? (place ++ first) = some c → (rest ≠ [] → c = .folder) →
          ((q ∈ d.select (p.below first) rest ∧ d.isFile q.text = true) ↔
            ∃ more, q = p.below (first ++ more) ∧ fit rest more = true ∧
              ∃ bytes, d.bytesAt? (place ++ (first ++ more)) = some bytes) := by
        intro first c hget hc
        have hfirst : ∀ part ∈ first, IsPart part := fun part hpart =>
          (hd.isName hget part (List.mem_append_right _ hpart)).1
        have hlink : ∀ target, c ≠ .link target := by
          rintro target rfl
          exact hlinks first target hget
        rw [ih hdown.tail (hp.below hfirst) (locate_below_of_get? hd hp hplace hfolder hget hlink)
          (hlinks.append first) fun hne => by rw [hget, hc hne]]
        simp only [Path.below_below, List.append_assoc]
      rw [mem_select_cons_iff hd hs hdown hp hplace hfolder hlinks]
      constructor
      · rintro ⟨⟨first, c, htakes, hget, hc, hq⟩, hfile⟩
        obtain ⟨more, rfl, hfit, bytes, hbytes⟩ := (hbelow first c hget fun h => hc (.inl h)).mp ⟨hq, hfile⟩
        refine ⟨first ++ more, rfl, fit_cons_iff.mpr ⟨?_, first, more, rfl, htakes, hfit⟩, bytes, hbytes⟩
        rintro rfl rfl
        obtain rfl : more = [] := by simpa [fit] using hfit
        have hfirst := hget.trans (congrArg some (hc (.inr rfl)))
        rw [List.append_nil, bytesAt?_eq_some_iff, home_of_folder hfirst, hfirst] at hbytes
        cases hbytes
      · rintro ⟨parts, rfl, hfit, bytes, hbytes⟩
        obtain ⟨hfolders, first, more, rfl, htakes, hfit⟩ := fit_cons_iff.mp hfit
        -- The way to a file leads through folders.
        obtain ⟨c₁, hfile⟩ := Sound.exists_of_bytesAt? hbytes
        have hfirst : ∃ c, d.get? (place ++ first) = some c ∧ (rest ≠ [] → c = .folder) := by
          by_cases hrest : rest = []
          · obtain rfl : more = [] := by simpa [hrest, fit] using hfit
            rw [List.append_nil] at hfile
            exact ⟨_, hfile, fun h => absurd hrest h⟩
          · rw [← List.append_assoc] at hfile
            exact ⟨.folder, hd.isFolder (ne_nil_of_fit hrest hfit) hfile, fun _ => rfl⟩
        obtain ⟨c, hget, hc⟩ := hfirst
        obtain ⟨hq, hfile⟩ := (hbelow first c hget hc).mpr ⟨more, rfl, hfit, bytes, hbytes⟩
        exact ⟨⟨first, c, htakes, hget, fun h => hc (h.elim id hfolders), hq⟩, hfile⟩

end Search

theorem append_lt_append_iff (base : List String) {parts parts' : List String} :
    base ++ parts < base ++ parts' ↔ parts < parts' := by
  induction base with
  | nil => rfl
  | cons part base ih => simp [ih]

theorem pathLe_below {root : Path} {parts parts' : List String} :
    pathLe (root.below parts) (root.below parts') = true ↔ ¬ parts' < parts := by
  by_cases hroot : root.root = ""
  · simp [pathLe, Path.below, hroot, append_lt_append_iff]
  · simp [pathLe, Path.below, hroot, append_lt_append_iff]

theorem pathLe_trans (a b c : Path) (hab : pathLe a b = true) (hbc : pathLe b c = true) :
    pathLe a c = true := by
  simp only [pathLe, Bool.not_eq_true', decide_eq_false_iff_not, not_lt] at *
  exact le_trans hab hbc

theorem pathLe_total (a b : Path) : (pathLe a b || pathLe b a) = true := by
  simp only [pathLe, Bool.or_eq_true, Bool.not_eq_true', decide_eq_false_iff_not, not_lt]
  exact le_total _ _

def foundBy (d : Disk) (folder : String) (recursive : Bool) : Value → Except Error (List Path)
  | .text pattern => do
      let selectors ← Selector.ofPattern recursive pattern
      pure (if d.isFolder (Path.ofText folder).text then d.select (Path.ofText folder) selectors else [])
  | _ => .error .wrongKind

theorem foundBy_eq_ok {folder : String} {recursive : Bool} {pattern : Value} {paths : List Path}
    (h : d.foundBy folder recursive pattern = .ok paths) :
    ∃ text selectors, pattern = .text text ∧ Selector.ofPattern recursive text = .ok selectors ∧
      paths = if d.isFolder (Path.ofText folder).text then d.select (Path.ofText folder) selectors
        else [] := by
  cases pattern with
  | text pattern =>
      obtain ⟨selectors, hselectors, hpaths⟩ := Traversal.bind_eq_ok_iff.mp h
      exact ⟨pattern, selectors, rfl, hselectors, (Except.ok.inj hpaths).symm⟩
  | _ => cases h

theorem findFiles_eq (d : Disk) (folder : String) (recursive : Bool) (patterns : List Value) :
    d.findFiles folder recursive patterns =
      (patterns.mapM (d.foundBy folder recursive)).map fun found =>
        (found.flatten.filter fun p => d.isFile p.text).eraseDups.mergeSort pathLe := by
  rw [findFiles]
  change patterns.mapM (d.foundBy folder recursive) >>= _ = _
  cases patterns.mapM (d.foundBy folder recursive) <;> rfl

section Find

variable {folder : String} {recursive : Bool} {patterns : List Value} {files : List Path}
  {place : Place}

theorem mem_findFiles_iff (hd : d.Sound)
    (hfound : d.findFiles folder recursive patterns = .ok files)
    (hdown : ∀ pattern, Value.text pattern ∈ patterns → ".." ∉ (Path.ofText pattern).parts)
    (hlocate : d.locate (Path.ofText folder).text = .ok place)
    (hfolder : d.get? place = some .folder) (hlinks : d.Unlinked place) {q : Path} :
    q ∈ files ↔ ∃ rel, q = (Path.ofText folder).below rel ∧
      (∃ pattern ∈ patterns, suits recursive pattern rel = true) ∧
        ∃ bytes, d.bytesAt? (place ++ rel) = some bytes := by
  rw [findFiles_eq] at hfound
  obtain ⟨found, hmapM, hfiles⟩ := Traversal.map_eq_ok_iff.mp hfound
  have hroot : d.isFolder (Path.ofText folder).text = true := by
    simp [isFolder, find?, hlocate, hfolder]
  -- What each pattern leads to.
  have hstep : List.Forall₂ (fun pattern paths => (q ∈ paths ∧ d.isFile q.text = true) ↔
      ∃ rel, q = (Path.ofText folder).below rel ∧ suits recursive pattern rel = true ∧
        ∃ bytes, d.bytesAt? (place ++ rel) = some bytes) patterns found := by
    refine (Traversal.forall₂_mem_left ((Traversal.mapM_eq_ok_iff _ _ _).mp hmapM)).imp ?_
    rintro _ _ ⟨hpattern, hof⟩
    obtain ⟨pattern, selectors, rfl, hselectors, rfl⟩ := foundBy_eq_ok hof
    rw [if_pos hroot, mem_select_iff hd (downward_ofPattern hselectors (hdown pattern hpattern))
      (Path.clean_ofText folder) (hlocate.trans (by rw [home_of_folder hfolder])) hlinks fun _ => hfolder]
    simp only [suits, hselectors]
  rw [← hfiles, List.mem_mergeSort, List.mem_eraseDups, List.mem_filter,
    List.mem_flatten]
  constructor
  · rintro ⟨⟨paths, hpaths, hq⟩, hfile⟩
    obtain ⟨pattern, hpattern, hiff⟩ := Traversal.forall₂_exists_left hstep hpaths
    obtain ⟨rel, hrel, hsuits, hbytes⟩ := hiff.mp ⟨hq, hfile⟩
    exact ⟨rel, hrel, ⟨pattern, hpattern, hsuits⟩, hbytes⟩
  · rintro ⟨rel, hrel, ⟨pattern, hpattern, hsuits⟩, hbytes⟩
    obtain ⟨paths, hpaths, hiff⟩ := Traversal.forall₂_exists_right hstep hpattern
    obtain ⟨hq, hfile⟩ := hiff.mpr ⟨rel, hrel, hsuits, hbytes⟩
    exact ⟨⟨paths, hpaths, hq⟩, hfile⟩

/-- The files of patterns come in the order of their parts, each once. -/
theorem exists_of_findFiles (hd : d.Sound)
    (hfound : d.findFiles folder recursive patterns = .ok files)
    (hdown : ∀ pattern, Value.text pattern ∈ patterns → ".." ∉ (Path.ofText pattern).parts)
    (hlocate : d.locate (Path.ofText folder).text = .ok place)
    (hfolder : d.get? place = some .folder) (hlinks : d.Unlinked place) :
    ∃ rels : List (List String), files = rels.map (Path.ofText folder).below ∧
      rels.Pairwise (· < ·) ∧
      ∀ rel, rel ∈ rels ↔ (∃ pattern ∈ patterns, suits recursive pattern rel = true) ∧
        ∃ bytes, d.bytesAt? (place ++ rel) = some bytes := by
  have hmem := fun q => mem_findFiles_iff hd hfound hdown hlocate hfolder hlinks (q := q)
  have hbelow : files ∈ Set.range (List.map (Path.ofText folder).below) := by
    rw [Set.range_list_map]
    intro q hq
    obtain ⟨rel, hrel, -⟩ := (hmem q).mp hq
    exact ⟨rel, hrel.symm⟩
  obtain ⟨rels, rfl⟩ := hbelow
  refine ⟨rels, rfl, ?_, fun rel => ?_⟩
  · rw [findFiles_eq] at hfound
    obtain ⟨found, -, hfiles⟩ := Traversal.map_eq_ok_iff.mp hfound
    have hnodup : rels.Nodup := by
      apply List.Nodup.of_map (Path.ofText folder).below
      rw [← hfiles]
      exact (Traversal.nodup_eraseDups _).mergeSort
    have hsorted : (rels.map (Path.ofText folder).below).Pairwise fun a b => pathLe a b = true := by
      rw [← hfiles]
      exact List.pairwise_mergeSort pathLe_trans pathLe_total _
    refine (List.pairwise_map.mp hsorted).imp₂ ?_ hnodup
    intro rel rel' hle hne
    exact lt_of_le_of_ne (not_lt.mp (pathLe_below.mp hle)) hne
  · rw [← List.mem_map_of_injective (Path.ofText folder).below_injective, hmem]
    constructor
    · rintro ⟨rel', hrel, h⟩
      rwa [(Path.ofText folder).below_injective hrel]
    · intro h
      exact ⟨rel, rfl, h⟩

/-- Neither the order nor the repetition of patterns matters. -/
theorem findFiles_congr (hd : d.Sound)
    (hfound : d.findFiles folder recursive patterns = .ok files)
    (hdown : ∀ pattern, Value.text pattern ∈ patterns → ".." ∉ (Path.ofText pattern).parts)
    (hlocate : d.locate (Path.ofText folder).text = .ok place)
    (hfolder : d.get? place = some .folder) (hlinks : d.Unlinked place) {patterns' : List Value}
    (hsame : ∀ pattern, pattern ∈ patterns' ↔ pattern ∈ patterns) :
    d.findFiles folder recursive patterns' = .ok files := by
  obtain ⟨files', hfound'⟩ : ∃ files', d.findFiles folder recursive patterns' = .ok files' := by
    rw [findFiles_eq] at hfound
    simp only [findFiles_eq, Traversal.map_eq_ok_iff]
    obtain ⟨found, hmapM, -⟩ := Traversal.map_eq_ok_iff.mp hfound
    have hall := (Traversal.exists_mapM_iff _ _).mp ⟨found, hmapM⟩
    obtain ⟨found', hmapM'⟩ := (Traversal.exists_mapM_iff _ _).mpr fun pattern hpattern =>
      hall pattern ((hsame pattern).mp hpattern)
    exact ⟨_, found', hmapM', rfl⟩
  obtain ⟨rels, rfl, hsorted, hrels⟩ := exists_of_findFiles hd hfound hdown hlocate hfolder hlinks
  obtain ⟨rels', rfl, hsorted', hrels'⟩ := exists_of_findFiles hd hfound'
    (fun pattern hpattern => hdown pattern ((hsame _).mp hpattern)) hlocate hfolder hlinks
  have hmem : ∀ rel, rel ∈ rels' ↔ rel ∈ rels := by
    intro rel
    rw [hrels, hrels']
    simp only [hsame]
  rw [hfound', hsorted'.eq_of_mem_iff hsorted hmem]

theorem findFiles_of_not_isFolder (hfound : d.findFiles folder recursive patterns = .ok files)
    (hfolder : d.isFolder (Path.ofText folder).text = false) : files = [] := by
  rw [findFiles_eq] at hfound
  obtain ⟨found, hmapM, hfiles⟩ := Traversal.map_eq_ok_iff.mp hfound
  have hstep := (Traversal.mapM_eq_ok_iff _ _ _).mp hmapM
  have hempty : ∀ paths ∈ found, paths = [] := by
    intro paths hpaths
    obtain ⟨pattern, -, hof⟩ := Traversal.forall₂_exists_left hstep hpaths
    obtain ⟨text, selectors, -, -, rfl⟩ := foundBy_eq_ok hof
    rw [hfolder]
    rfl
  rw [← hfiles, List.flatten_eq_nil_iff.mpr hempty]
  simp

/-- Sorting has nothing to do if the patterns lead to the files in order. -/
theorem findFiles_of_sorted
    (h : ((patterns.mapM (d.foundBy folder recursive)).map fun found =>
      (found.flatten.filter fun p => d.isFile p.text).eraseDups).toOption = some files)
    (hsorted : files.Pairwise fun a b => pathLe a b = true) :
    d.findFiles folder recursive patterns = .ok files := by
  rw [findFiles_eq]
  cases hfound : patterns.mapM (d.foundBy folder recursive) with
  | error e =>
      rw [hfound] at h
      cases h
  | ok found =>
      rw [hfound] at h
      have hfiles : (found.flatten.filter fun p => d.isFile p.text).eraseDups = files :=
        Option.some.inj h
      rw [Except.map, hfiles, List.mergeSort_of_pairwise hsorted]

end Find

end Disk

end Pseudonym.Files
