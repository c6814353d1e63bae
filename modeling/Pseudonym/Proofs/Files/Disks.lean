import Pseudonym.Proofs.Files.Paths
import Pseudonym.Proofs.Traversal

namespace Pseudonym.Files

open Text (Bytes)

/-- Whether something stands for what is at another place. -/
def Content.leadsOn : Content → Bool
  | .sameAs _ | .link _ => true
  | _ => false

namespace Disk

variable {d d' d'' : Disk}

section Places

theorem here_set (d : Disk) (place : Place) (c : Content) : (d.set place c).here = d.here := by
  rw [set]
  split <;> rfl

theorem refused_set (d : Disk) (place : Place) (c : Content) : (d.set place c).refused = d.refused := by
  rw [set]
  split <;> rfl

theorem lookup_replace (entries : List (Place × Content)) (place q : Place) (c : Content) :
    (entries.map fun e => if e.1 = place then (place, c) else e).lookup q =
      if q = place then (entries.lookup place).map fun _ => c else entries.lookup q := by
  induction entries with
  | nil => simp
  | cons e entries ih =>
      obtain ⟨p, old⟩ := e
      by_cases hp : p = place
      · subst hp
        by_cases hq : q = p
        · simp [hq]
        · simp [List.lookup_cons, hq, ih, beq_false_of_ne hq]
      · by_cases hq : q = p
        · subst hq
          simp [hp]
        · by_cases hplace : q = place
          · subst hplace
            simp [List.lookup_cons, hp, ih, beq_false_of_ne hq]
          · simp [List.lookup_cons, hp, ih, beq_false_of_ne hq, hplace]

/-- The top of a disk is a folder whatever is put there. -/
theorem get?_set (d : Disk) {place : Place} (hplace : place ≠ []) (c : Content) (q : Place) :
    (d.set place c).get? q = if q = place then some c else d.get? q := by
  have hlookup : (d.set place c).entries.lookup q =
      if q = place then some c else d.entries.lookup q := by
    rw [set]
    split
    next hsome =>
      obtain ⟨old, hold⟩ := Option.isSome_iff_exists.mp hsome
      rw [lookup_replace, hold]
      rfl
    next hnone =>
      rw [Option.not_isSome_iff_eq_none] at hnone
      rw [List.lookup_append]
      by_cases hq : q = place
      · subst hq
        simp [hnone]
      · simp [List.lookup_cons, beq_false_of_ne hq, hq]
  rw [get?, get?, hlookup]
  by_cases hq : q = []
  · subst hq
    simp [Ne.symm hplace]
  · have hempty : ¬ q.isEmpty = true := by simpa using hq
    rw [if_neg hempty, if_neg hempty]

theorem ne_nil_of_get? {place : Place} (h : d.get? place ≠ some .folder) : place ≠ [] := by
  rintro rfl
  exact h rfl

/-- The link or the second name at a place. -/
def pointer? (d : Disk) (place : Place) : Option Content := (d.get? place).filter Content.leadsOn

theorem pointer?_eq_some_iff {place : Place} {c : Content} :
    d.pointer? place = some c ↔ d.get? place = some c ∧ c.leadsOn = true := by
  rw [pointer?, Option.filter_eq_some_iff]

theorem pointer?_eq_none_of {place : Place} {c : Content} (h : d.get? place = some c)
    (hc : c.leadsOn = false) : d.pointer? place = none := by
  rw [pointer?, h, Option.filter_some, hc]
  rfl

theorem get?_ne_of_leadsOn {place : Place} {c : Content} (h : ∀ e ∈ d.entries, e.2.leadsOn = false)
    (hc : c.leadsOn = true) : d.get? place ≠ some c := by
  intro hget
  rw [get?] at hget
  split at hget
  · cases hget
    cases hc
  · obtain ⟨before, after, hentries, -⟩ := List.lookup_eq_some_iff.mp hget
    have hnone := h (place, c) (by rw [hentries]; exact List.mem_append_cons_self)
    cases hnone.symm.trans hc

theorem pointer?_of_vacant {place : Place} (h : d.get? place = none) : d.pointer? place = none := by
  rw [pointer?, h, Option.filter_none]

end Places

section Following

variable {place : Place} {left : Nat} {part : String} {parts rest : List String} {q : Place × Nat}

theorem step_of_isName {name : String} (h : IsName name) (place : Place) :
    step place name = place ++ [name] := by
  rw [step, if_neg h.2.1, if_neg h.2.2]

/-- How a path is followed on from a link. -/
def onward (d : Disk) : Nat → Place → List String → Except Obstacle (Place × Nat)
  | 0 => fun _ _ => .error .tooManyLinks
  | left + 1 => d.follow left

theorem follow_nil (d : Disk) (left : Nat) (place : Place) : d.follow left place [] = .ok (place, left) := by
  cases left <;> rfl

theorem follow_cons (d : Disk) (left : Nat) (place : Place) (part : String) (rest : List String) :
    d.follow left place (part :: rest) =
      if d.get? place = some .folder then
        match d.pointer? (step place part) with
        | some (.link target) => d.onward left (startFrom place target) (partsOf target ++ rest)
        | some (.sameAs first) => d.follow left first rest
        | _ => d.follow left (step place part) rest
      else .error (if d.get? place = none then .missing else .notAFolder) := by
  have hwalk : d.follow left = d.walk left (d.onward left) := by cases left <;> rfl
  rw [hwalk, walk]
  cases hplace : d.get? place with
  | none => simp
  | some c =>
      cases c with
      | folder =>
          rw [if_pos rfl, pointer?]
          cases hstep : d.get? (step place part) with
          | none => rfl
          | some c => cases c <;> rfl
      | _ => simp

theorem isFolder_of_follow (h : d.follow left place (part :: rest) = .ok q) :
    d.get? place = some .folder := by
  rw [follow_cons] at h
  split at h
  · assumption
  · cases h

theorem follow_of_plain (hfolder : d.get? place = some .folder)
    (hplain : d.pointer? (step place part) = none) :
    d.follow left place (part :: rest) = d.follow left (step place part) rest := by
  rw [follow_cons, if_pos hfolder, hplain]

/-- A step that meets no link ends where it leads, or at the file that has a second name there. -/
theorem exists_follow_singleton (hfolder : d.get? place = some .folder)
    (hlinks : ∀ target, d.get? (step place part) ≠ some (.link target)) (left : Nat) :
    ∃ p, d.follow left place [part] = .ok (p, left) ∧
      (p = step place part ∨ d.get? (step place part) = some (.sameAs p)) := by
  cases hpointer : d.pointer? (step place part) with
  | none => exact ⟨_, (follow_of_plain hfolder hpointer).trans (follow_nil _ _ _), .inl rfl⟩
  | some c =>
      obtain ⟨hget, hleads⟩ := pointer?_eq_some_iff.mp hpointer
      cases c with
      | link target => exact absurd hget (hlinks target)
      | sameAs first =>
          refine ⟨first, ?_, .inr hget⟩
          rw [follow_cons, if_pos hfolder, hpointer]
          exact follow_nil d left first
      | _ => cases hleads

/-- A path in two is followed one part after the other, with the links that are left. -/
theorem follow_append (d : Disk) (left : Nat) (place : Place) (xs ys : List String) :
    d.follow left place (xs ++ ys) = d.follow left place xs >>= fun r => d.follow r.2 r.1 ys := by
  induction left using Nat.strong_induction_on generalizing place xs with
  | _ left ih =>
      induction xs generalizing place with
      | nil =>
          rw [follow_nil]
          rfl
      | cons part xs ihx =>
          rw [List.cons_append, follow_cons, follow_cons]
          split
          · split
            · -- From a link it goes on with one link less.
              cases left with
              | zero => rfl
              | succ left =>
                  rw [← List.append_assoc]
                  exact ih left (Nat.lt_succ_self left) _ _
            · exact ihx _
            · exact ihx _
          · rfl

theorem follow_append_eq_ok_iff {xs ys : List String} :
    d.follow left place (xs ++ ys) = .ok q ↔
      ∃ p, d.follow left place xs = .ok p ∧ d.follow p.2 p.1 ys = .ok q := by
  rw [follow_append, Traversal.bind_eq_ok_iff]

theorem follow_dot (h : d.get? place = some .folder) (rest : List String) :
    d.follow left place ("." :: rest) = d.follow left place rest :=
  follow_of_plain h (pointer?_eq_none_of h rfl)

theorem follow_filter (h : d.follow left place parts = .ok q) :
    d.follow left place (parts.filter (· ≠ ".")) = .ok q := by
  induction parts generalizing left place with
  | nil => exact h
  | cons part parts ih =>
      by_cases hdot : part = "."
      · subst hdot
        rw [follow_dot (isFolder_of_follow h)] at h
        exact ih h
      · rw [List.filter_cons_of_pos (by simpa using hdot), ← List.singleton_append,
          follow_append_eq_ok_iff]
        obtain ⟨p, hp, hrest⟩ := follow_append_eq_ok_iff.mp (List.singleton_append ▸ h)
        exact ⟨p, hp, ih hrest⟩

/-- Names lead straight down where nothing leads elsewhere. -/
theorem eq_append_of_follow {names : List String} (hnames : ∀ name ∈ names, IsName name)
    (hplain : ∀ parts, d.pointer? (place ++ parts) = none)
    (h : d.follow left place names = .ok q) : q = (place ++ names, left) := by
  induction names generalizing place with
  | nil =>
      rw [follow_nil] at h
      rw [← Except.ok.inj h, List.append_nil]
  | cons name names ih =>
      obtain ⟨hname, hnames⟩ := List.forall_mem_cons.mp hnames
      have hassoc : ∀ parts, place ++ [name] ++ parts = place ++ name :: parts := by simp
      rw [follow_of_plain (isFolder_of_follow h) (step_of_isName hname place ▸ hplain _),
        step_of_isName hname] at h
      rw [ih hnames (fun parts => hassoc parts ▸ hplain _) h, hassoc]

theorem locate_eq_ok_iff {path : String} :
    d.locate path = .ok place ↔ path ≠ "" ∧
      ∃ left, d.follow linkLimit (startFrom d.here path) (partsOf path) = .ok (place, left) := by
  rw [locate]
  by_cases hpath : path = ""
  · subst hpath
    simp
  · simp [hpath, Traversal.map_eq_ok_iff]

theorem entryOf_eq_ok_iff {path : String} :
    d.entryOf path = .ok place ↔ path ≠ "" ∧ ∃ parent left,
      d.follow linkLimit (startFrom d.here path) (partsOf path).dropLast = .ok (parent, left) ∧
      d.get? parent = some .folder ∧ place = step parent ((partsOf path).getLastD ".") := by
  rw [entryOf]
  by_cases hpath : path = ""
  · subst hpath
    simp
  simp only [String.isEmpty_iff, hpath, if_false, Traversal.bind_eq_ok_iff, ne_eq, not_false_eq_true,
    true_and, Prod.exists]
  refine exists_congr fun parent => exists_congr fun left => and_congr_right fun _ => ?_
  cases hget : d.get? parent with
  | none => simp
  | some c => cases c <;> simp [eq_comm]

/-- A place that is vacant is found by its path. -/
theorem locate_of_entryOf {path : String} (h : d.entryOf path = .ok place)
    (hplain : d.pointer? place = none) : d.locate path = .ok place := by
  obtain ⟨hpath, parent, left, hparent, hfolder, rfl⟩ := entryOf_eq_ok_iff.mp h
  refine locate_eq_ok_iff.mpr ⟨hpath, left, ?_⟩
  rcases List.eq_nil_or_concat (partsOf path) with hnil | ⟨init, last, hparts⟩
  · rw [hnil] at hparent ⊢
    exact hparent
  · rw [hparts, List.concat_eq_append] at hparent hplain ⊢
    rw [List.dropLast_concat] at hparent
    rw [List.getLastD_concat] at hplain ⊢
    exact follow_append_eq_ok_iff.mpr
      ⟨_, hparent, (follow_of_plain hfolder hplain).trans (follow_nil _ _ _)⟩

def origin (d : Disk) (p : Path) : Place := if p.root = "" then d.here else []

theorem origin_ofText (d : Disk) (path : String) : d.origin (.ofText path) = startFrom d.here path := by
  have hroot : (Path.ofText path).root = Path.rootOf path := rfl
  rw [origin, startFrom, hroot]
  rcases Path.rootOf_cases path with ⟨hroot, hhead⟩ | ⟨hroot | hroot, hhead⟩
  · rw [if_pos hroot, if_neg hhead]
  · rw [hroot, if_neg (by decide), if_pos hhead]
  · rw [hroot, if_neg (by decide), if_pos hhead]

theorem startFrom_text {p : Path} (h : p.Clean) : startFrom d.here p.text = d.origin p := by
  rw [startFrom, origin]
  by_cases hroot : p.root = ""
  · rw [if_neg ((Path.head?_text h).not.mpr (not_not_intro hroot)), if_pos hroot]
  · rw [if_pos ((Path.head?_text h).mpr hroot), if_neg hroot]

theorem locate_text {p : Path} (h : p.Clean) :
    d.locate p.text =
      (d.follow linkLimit (d.origin p) (if p.parts = [] then ["."] else p.parts)).map (·.1) := by
  have hne : p.text.isEmpty = false := by
    have hparts := Path.partsOf_text h
    rw [← Bool.not_eq_true, String.isEmpty_iff]
    intro hempty
    rw [hempty] at hparts
    by_cases hnil : p.parts = [] <;> simp [hnil, show partsOf "" = [] by decide] at hparts
  rw [locate, hne, Path.partsOf_text h, ← startFrom_text h]
  rfl

end Following

/-- A later disk has the folders of an earlier one, and the same links and second names. -/
structure Keeps (d d' : Disk) : Prop where
  here : d'.here = d.here
  refused : d'.refused = d.refused
  folders : ∀ place, d.get? place = some .folder → d'.get? place = some .folder
  pointers : ∀ place, d'.pointer? place = d.pointer? place

namespace Keeps

theorem refl (d : Disk) : d.Keeps d := ⟨rfl, rfl, fun _ h => h, fun _ => rfl⟩

theorem trans (h : d.Keeps d') (h' : d'.Keeps d'') : d.Keeps d'' where
  here := h'.here.trans h.here
  refused := h'.refused.trans h.refused
  folders place hplace := h'.folders place (h.folders place hplace)
  pointers place := (h'.pointers place).trans (h.pointers place)

theorem set {place : Place} (hplace : d.get? place ≠ some .folder) (hplain : d.pointer? place = none)
    {c : Content} (hc : c.leadsOn = false) : d.Keeps (d.set place c) := by
  have hget := get?_set d (ne_nil_of_get? hplace) c
  refine ⟨here_set d place c, refused_set d place c, fun q hq => ?_, fun q => ?_⟩
  · rw [hget, if_neg, hq]
    rintro rfl
    exact hplace hq
  · by_cases hq : q = place
    · subst hq
      rw [hplain, pointer?_eq_none_of ((hget q).trans (if_pos rfl)) hc]
    · rw [pointer?, hget, if_neg hq, pointer?]

theorem follow (h : d.Keeps d') {left : Nat} {place : Place} {parts : List String} {q : Place × Nat}
    (hfollow : d.follow left place parts = .ok q) : d'.follow left place parts = .ok q := by
  induction left using Nat.strong_induction_on generalizing place parts with
  | _ left ih =>
      induction parts generalizing place with
      | nil =>
          rw [follow_nil] at hfollow ⊢
          exact hfollow
      | cons part parts ihp =>
          have hfolder := isFolder_of_follow hfollow
          rw [follow_cons, if_pos hfolder] at hfollow
          rw [follow_cons, if_pos (h.folders place hfolder), h.pointers]
          split
          next target hlink =>
            rw [hlink] at hfollow
            cases left with
            | zero => exact hfollow
            | succ left => exact ih left (Nat.lt_succ_self left) hfollow
          next first hsecond =>
            rw [hsecond] at hfollow
            exact ihp hfollow
          next hlink hsecond =>
            refine ihp ?_
            split at hfollow
            next target hlink' => exact absurd hlink' (hlink target)
            next first hsecond' => exact absurd hsecond' (hsecond first)
            next => exact hfollow

/-- Paths lead where they led. -/
theorem locate (h : d.Keeps d') {path : String} {place : Place} (hlocate : d.locate path = .ok place) :
    d'.locate path = .ok place := by
  obtain ⟨hne, left, hfollow⟩ := locate_eq_ok_iff.mp hlocate
  refine locate_eq_ok_iff.mpr ⟨hne, left, ?_⟩
  rw [h.here]
  exact h.follow hfollow

end Keeps

section Operations

variable {path : String} {bytes : Bytes}

/-- A path leads to a file with some bytes, or to a device that has swallowed them. -/
def Holds (d : Disk) (path : String) (bytes : Bytes) : Prop :=
  ∃ place, d.locate path = .ok place ∧
    (d.get? place = some (.file bytes) ∨ d.get? place = some .device)

theorem read_eq_ok_iff :
    d.read path = .ok bytes ↔ ∃ place, d.locate path = .ok place ∧ (place, .reading) ∉ d.refused ∧
      (d.get? place = some (.file bytes) ∨ (d.get? place = some .device ∧ bytes = [])) := by
  rw [read]
  cases hlocate : d.locate path with
  | error o => simp
  | ok place =>
      by_cases hrefused : (place, Access.reading) ∈ d.refused
      · simp [hrefused]
      cases hget : d.get? place with
      | none => simp [hrefused, hget]
      | some c => cases c <;> simp [hrefused, hget, eq_comm]

theorem read_congr {place : Place} (hlocate : d.locate path = .ok place)
    (hlocate' : d'.locate path = .ok place) (hrefused : d'.refused = d.refused)
    (hget : d'.get? place = d.get? place) : d'.read path = d.read path := by
  rw [read, read, hlocate, hlocate', hrefused]
  dsimp only
  rw [hget]

theorem isFile_iff : d.isFile path = true ↔
    ∃ place bytes, d.locate path = .ok place ∧ d.get? place = some (.file bytes) := by
  rw [isFile, find?]
  cases hlocate : d.locate path with
  | error o => simp
  | ok place =>
      cases hget : d.get? place with
      | none => simp [hget]
      | some c => cases c <;> simp [hget]

theorem isFolder_iff :
    d.isFolder path = true ↔ ∃ place, d.locate path = .ok place ∧ d.get? place = some .folder := by
  rw [isFolder, find?, beq_iff_eq]
  cases hlocate : d.locate path <;> simp

/-- A place that can be written to: a file is there, or nothing. -/
def Fillable (d : Disk) (place : Place) : Prop :=
  d.get? place = none ∨ ∃ old, d.get? place = some (.file old)

theorem Fillable.ne_folder {place : Place} (h : d.Fillable place) : d.get? place ≠ some .folder := by
  rcases h with hnone | ⟨old, hold⟩
  · simp [hnone]
  · simp [hold]

theorem Fillable.pointer? {place : Place} (h : d.Fillable place) : d.pointer? place = none := by
  rcases h with hnone | ⟨old, hold⟩
  · exact pointer?_of_vacant hnone
  · exact pointer?_eq_none_of hold rfl

/-- What is written goes to the file that the path leads to, unless a device takes it. -/
theorem write_cases (h : d.write path bytes = .ok d') : ∃ place, d.locate path = .ok place ∧
    ((d.Fillable place ∧ d' = d.set place (.file bytes)) ∨ (d.get? place = some .device ∧ d' = d)) := by
  rw [write] at h
  split at h
  · cases h
  split at h
  · split at h <;> cases h
  cases hlocate : d.locate path with
  | error o =>
      rw [hlocate] at h
      cases h
  | ok place =>
      simp only [hlocate] at h
      split at h
      · cases h
      refine ⟨place, rfl, ?_⟩
      cases hget : d.get? place with
      | none =>
          rw [hget] at h
          exact .inl ⟨.inl hget, (Except.ok.inj h).symm⟩
      | some c =>
          rw [hget] at h
          cases c with
          | file old => exact .inl ⟨.inr ⟨old, hget⟩, (Except.ok.inj h).symm⟩
          | device => exact .inr ⟨rfl, (Except.ok.inj h).symm⟩
          | _ => cases h

theorem makeFolder_cases (h : d.makeFolder path = .ok d') :
    ∃ place, d.entryOf (withoutSlashes path) = .ok place ∧ d.get? place = none ∧
      d' = d.set place .folder := by
  rw [makeFolder] at h
  split at h
  · cases h
  cases hentry : d.entryOf (withoutSlashes path) with
  | error o =>
      rw [hentry] at h
      cases h
  | ok place =>
      rw [hentry] at h
      cases hget : d.get? place with
      | some c =>
          simp only [hget] at h
          cases h
      | none =>
          simp only [hget] at h
          split at h
          · cases h
          · exact ⟨place, rfl, hget, (Except.ok.inj h).symm⟩

theorem write_keeps (h : d.write path bytes = .ok d') : d.Keeps d' := by
  obtain ⟨place, -, ⟨hplace, rfl⟩ | ⟨-, rfl⟩⟩ := write_cases h
  · exact .set hplace.ne_folder hplace.pointer? rfl
  · exact .refl d'

theorem write_others (h : d.write path bytes = .ok d') (place : Place) :
    d'.get? place = d.get? place ∨ d'.locate path = .ok place := by
  have hkeeps := write_keeps h
  obtain ⟨target, hlocate, ⟨hplace, rfl⟩ | ⟨-, rfl⟩⟩ := write_cases h
  · by_cases hq : place = target
    · subst hq
      exact .inr (hkeeps.locate hlocate)
    · exact .inl (by rw [get?_set d (ne_nil_of_get? hplace.ne_folder), if_neg hq])
  · exact .inl rfl

theorem holds_of_write (h : d.write path bytes = .ok d') : d'.Holds path bytes := by
  have hkeeps := write_keeps h
  obtain ⟨place, hlocate, ⟨hplace, rfl⟩ | ⟨hdevice, rfl⟩⟩ := write_cases h
  · refine ⟨place, hkeeps.locate hlocate, .inl ?_⟩
    rw [get?_set d (ne_nil_of_get? hplace.ne_folder), if_pos rfl]
  · exact ⟨place, hlocate, .inr hdevice⟩

theorem Keeps.not_holds (h : d.Keeps d') (hfolder : d.isFolder path = true) :
    ¬ d'.Holds path bytes := by
  rintro ⟨place', hlocate', hget'⟩
  obtain ⟨place, hlocate, hget⟩ := isFolder_iff.mp hfolder
  obtain rfl := Except.ok.inj ((h.locate hlocate).symm.trans hlocate')
  rcases hget' with hget' | hget' <;> cases (h.folders place hget).symm.trans hget'

/-- What has no size cannot be read. -/
theorem read_of_size_error {f : FileFault} (h : d.size path = .error f) :
    ∃ f', d.read path = .error f' := by
  rw [size] at h
  rw [read]
  cases hlocate : d.locate path with
  | error o => exact ⟨_, rfl⟩
  | ok place =>
      rw [hlocate] at h
      cases hget : d.get? place with
      | none =>
          simp only [hget]
          split <;> exact ⟨_, rfl⟩
      | some c =>
          simp only [hget] at h
          cases c <;> cases h

/-- Where a copy goes: into the target if that is a folder. -/
def copyPath (d : Disk) (source target : String) : String :=
  if d.isFolder target then joinText target (splitLast source).2 else target

theorem copy_eq_ok_iff {source target : String} :
    d.copy source target = .ok d' ↔ d.isSame source (d.copyPath source target) = false ∧
      ∃ bytes, d.read source = .ok bytes ∧ d.write (d.copyPath source target) bytes = .ok d' := by
  have hcopy : d.copy source target =
      if d.isSame source (d.copyPath source target) = true then
        Except.error (FileFault.sameFile source (d.copyPath source target)) >>= fun _ : Unit =>
          d.read source >>= d.write (d.copyPath source target)
      else d.read source >>= d.write (d.copyPath source target) := rfl
  rw [hcopy, Traversal.when_seq_eq_ok_iff, Traversal.bind_eq_ok_iff]
  simp

end Operations

/-- A place is as it was, or it has a new folder. -/
def Grown (d d' : Disk) (place : Place) : Prop :=
  d'.get? place = d.get? place ∨ (d.get? place = none ∧ d'.get? place = some .folder)

theorem Grown.trans {place : Place} (h : Grown d d' place) (h' : Grown d' d'' place) :
    Grown d d'' place := by
  rcases h' with hsame' | ⟨hnone', hnew'⟩
  · rw [Grown, hsame']
    exact h
  · rcases h with hsame | ⟨-, hnew⟩
    · exact .inr ⟨hsame.symm.trans hnone', hnew'⟩
    · cases hnone'.symm.trans hnew

theorem Grown.eq_of_some {place : Place} {c : Content} (h : Grown d d' place)
    (hget : d.get? place = some c) : d'.get? place = some c := by
  rcases h with hsame | ⟨hnone, -⟩
  · exact hsame.trans hget
  · cases hnone.symm.trans hget

theorem Grown.file_iff {place : Place} {bytes : Bytes} (h : Grown d d' place) :
    d'.get? place = some (.file bytes) ↔ d.get? place = some (.file bytes) := by
  rcases h with hsame | ⟨hnone, hnew⟩
  · rw [hsame]
  · simp [hnone, hnew]

/-- What differs on a later disk is a new folder or lies where one of some paths leads to. -/
structure Touches (d : Disk) (paths : List String) (d' : Disk) : Prop extends Keeps d d' where
  others : ∀ place, Grown d d' place ∨ ∃ path ∈ paths, d'.locate path = .ok place

namespace Touches

variable {paths paths' : List String}

theorem refl (d : Disk) (paths : List String) : d.Touches paths d :=
  ⟨.refl d, fun _ => .inl (.inl rfl)⟩

theorem mono (h : d.Touches paths d') (hsub : paths ⊆ paths') : d.Touches paths' d' := by
  refine ⟨h.toKeeps, fun place => ?_⟩
  rcases h.others place with hgrown | ⟨path, hpath, hlocate⟩
  · exact .inl hgrown
  · exact .inr ⟨path, hsub hpath, hlocate⟩

theorem trans (h : d.Touches paths d') (h' : d'.Touches paths d'') : d.Touches paths d'' := by
  refine ⟨h.toKeeps.trans h'.toKeeps, fun place => ?_⟩
  rcases h'.others place with hgrown' | hpath
  · rcases h.others place with hgrown | ⟨path, hpath, hlocate⟩
    · exact .inl (hgrown.trans hgrown')
    · exact .inr ⟨path, hpath, h'.toKeeps.locate hlocate⟩
  · exact .inr hpath

theorem grown (h : d.Touches paths d') {place : Place}
    (hpaths : ∀ path ∈ paths, d'.locate path ≠ .ok place) : Grown d d' place := by
  rcases h.others place with hgrown | ⟨path, hpath, hlocate⟩
  · exact hgrown
  · exact absurd hlocate (hpaths path hpath)

theorem holds (h : d.Touches paths d') {path : String} {bytes : Bytes} (hholds : d.Holds path bytes)
    (hpaths : ∀ place, d.locate path = .ok place → ∀ p ∈ paths, d'.locate p ≠ .ok place) :
    d'.Holds path bytes := by
  obtain ⟨place, hlocate, hget⟩ := hholds
  have hgrown := h.grown (hpaths place hlocate)
  exact ⟨place, h.toKeeps.locate hlocate, hget.imp hgrown.eq_of_some hgrown.eq_of_some⟩

end Touches

/-- What differs on a later disk lies where one of some paths leads to. -/
structure Alters (d : Disk) (paths : List String) (d' : Disk) : Prop extends Keeps d d' where
  others : ∀ place, d'.get? place = d.get? place ∨ ∃ path ∈ paths, d'.locate path = .ok place

namespace Alters

variable {paths paths' : List String}

theorem refl (d : Disk) (paths : List String) : d.Alters paths d := ⟨.refl d, fun _ => .inl rfl⟩

theorem mono (h : d.Alters paths d') (hsub : paths ⊆ paths') : d.Alters paths' d' :=
  ⟨h.toKeeps, fun place => (h.others place).imp_right fun ⟨path, hpath, hlocate⟩ =>
    ⟨path, hsub hpath, hlocate⟩⟩

theorem trans (h : d.Alters paths d') (h' : d'.Alters paths d'') : d.Alters paths d'' := by
  refine ⟨h.toKeeps.trans h'.toKeeps, fun place => ?_⟩
  rcases h'.others place with hsame' | hpath
  · rw [hsame']
    exact (h.others place).imp_right fun ⟨path, hpath, hlocate⟩ =>
      ⟨path, hpath, h'.toKeeps.locate hlocate⟩
  · exact .inr hpath

theorem touches (h : d.Alters paths d') : d.Touches paths d' :=
  ⟨h.toKeeps, fun place => (h.others place).imp_left .inl⟩

end Alters

theorem write_alters {path : String} {bytes : Bytes} (h : d.write path bytes = .ok d') :
    d.Alters [path] d' :=
  ⟨write_keeps h, fun place => (write_others h place).imp_right fun hlocate =>
    ⟨path, List.mem_singleton_self path, hlocate⟩⟩

theorem append_alters {path : String} {bytes : Bytes} (h : d.append path bytes = .ok d') :
    d.Alters [path] d' := by
  rw [append] at h
  split at h <;> exact write_alters h

theorem grown_set {place : Place} (hnone : d.get? place = none) (q : Place) :
    Grown d (d.set place .folder) q := by
  have hplace : d.get? place ≠ some .folder := by simp [hnone]
  rw [Grown, get?_set d (ne_nil_of_get? hplace)]
  by_cases hq : q = place
  · subst hq
    exact .inr ⟨hnone, if_pos rfl⟩
  · exact .inl (if_neg hq)

theorem makeFolder_touches {path : String} (h : d.makeFolder path = .ok d') : d.Touches [] d' := by
  obtain ⟨place, -, hnone, rfl⟩ := makeFolder_cases h
  exact ⟨.set (by simp [hnone]) (pointer?_of_vacant hnone) rfl, fun q => .inl (grown_set hnone q)⟩

theorem fst_ensureFolder (d : Disk) (path : String) :
    (d.ensureFolder path).1 = (d.makeFolder path).toOption.getD d := by
  rw [ensureFolder]
  cases d.makeFolder path <;> rfl

theorem ensureFoldersUpTo_cases (d : Disk) (path : String) (levels : Nat) :
    d.ensureFoldersUpTo path (levels + 1) = d.ensureFolder path ∨
      ∃ made f, d.ensureFoldersUpTo (splitPart path).1 levels = (made, f) ∧
        (d.ensureFoldersUpTo path (levels + 1) = (made, none) ∨
          d.ensureFoldersUpTo path (levels + 1) = made.ensureFolder path ∨
          d.ensureFoldersUpTo path (levels + 1) = (made, f)) := by
  simp only [ensureFoldersUpTo, Prod.eta]
  rw [← splitPart]
  split
  · exact .inl rfl
  · split
    next made h =>
      refine .inr ⟨made, none, h, ?_⟩
      split
      · exact .inl rfl
      · exact .inr (.inl rfl)
    next made text h =>
      refine .inr ⟨made, some (.alreadyThere text), h, ?_⟩
      split
      · exact .inl rfl
      · exact .inr (.inl rfl)
    next made f _ h => exact .inr ⟨made, some f, h, .inr (.inr rfl)⟩

/-- What making one folder preserves is preserved by making those of a path. -/
theorem ensureFoldersUpTo_induct {P : Disk → Prop}
    (hstep : ∀ d d' path, P d → d.makeFolder path = .ok d' → P d') (hd : P d) (path : String)
    (levels : Nat) : P (d.ensureFoldersUpTo path levels).1 := by
  have hmake : ∀ (d : Disk) (path : String), P d → P (d.ensureFolder path).1 := by
    intro d path hd
    rw [fst_ensureFolder]
    cases hmade : d.makeFolder path with
    | ok made => exact hstep d made path hd hmade
    | error f => exact hd
  induction levels generalizing path with
  | zero => exact hmake d path hd
  | succ levels ih =>
      obtain h | ⟨made, f, hparents, hlast⟩ := ensureFoldersUpTo_cases d path levels
      · rw [h]
        exact hmake d path hd
      · have hmade := ih (splitPart path).1
        rw [hparents] at hmade
        obtain h | h | h := hlast <;> rw [h]
        · exact hmade
        · exact hmake made path hmade
        · exact hmade

theorem ensureFolders_touches (d : Disk) (path : String) : d.Touches [] (d.ensureFolders path).1 :=
  ensureFoldersUpTo_induct (P := d.Touches []) (fun _ _ _ h hmade => h.trans (makeFolder_touches hmade))
    (.refl d []) path _

end Disk

end Pseudonym.Files
