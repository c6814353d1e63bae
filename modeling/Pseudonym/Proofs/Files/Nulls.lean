import Pseudonym.Proofs.Files.Disks

namespace Pseudonym.Files

/-- A text without the character that no path may hold. -/
def NullFree (s : String) : Prop := '\x00' ∉ s.toList

instance : DecidablePred NullFree := fun s => inferInstanceAs (Decidable ('\x00' ∉ s.toList))

variable {path : String}

theorem nullFree_append_iff {a b : String} : NullFree (a ++ b) ↔ NullFree a ∧ NullFree b := by
  simp [NullFree, String.toList_append]

section Parts

theorem exists_mem_splitOn_iff {cs : List Char} {c : Char} (hc : c ≠ '/') :
    (∃ part ∈ cs.splitOn '/', c ∈ part) ↔ c ∈ cs := by
  induction cs with
  | nil => simp
  | cons x cs ih =>
      rw [List.splitOn_cons_eq_if_modifyHead]
      by_cases hx : x = '/'
      · subst hx
        simp [ih, hc]
      · cases hsplit : cs.splitOn '/' with
        | nil => exact absurd hsplit (List.splitOn_ne_nil _ _)
        | cons part parts =>
            rw [hsplit] at ih
            simp only [List.mem_cons, exists_eq_or_imp] at ih
            simp [hx, ← ih, or_assoc]

theorem nullFree_iff_splitSlashes : NullFree path ↔ ∀ part ∈ splitSlashes path, NullFree part := by
  rw [NullFree, ← exists_mem_splitOn_iff (by decide)]
  simp [splitSlashes, NullFree]

theorem nullFree_iff_filled : NullFree path ↔ ∀ part ∈ filled path, NullFree part := by
  rw [nullFree_iff_splitSlashes]
  constructor
  · exact fun h part hpart => h part (List.mem_of_mem_filter hpart)
  · intro h part hpart
    by_cases hempty : part = ""
    · subst hempty
      decide
    · exact h part (List.mem_filter.mpr ⟨hpart, decide_eq_true hempty⟩)

theorem nullFree_intercalate {parts : List String} (h : ∀ part ∈ parts, NullFree part) :
    NullFree ("/".intercalate parts) := by
  induction parts with
  | nil => decide
  | cons part parts ih =>
      obtain ⟨hpart, hparts⟩ := List.forall_mem_cons.mp h
      by_cases hnil : parts = []
      · subst hnil
        rw [String.intercalate_singleton]
        exact hpart
      · rw [String.intercalate_cons_of_ne_nil hnil, nullFree_append_iff, nullFree_append_iff]
        exact ⟨⟨hpart, by decide⟩, ih hparts⟩

theorem NullFree.splitLast (h : NullFree path) :
    NullFree (splitLast path).1 ∧ NullFree (splitLast path).2 := by
  obtain ⟨head, hpath, -, -, hfst⟩ := exists_splitLast path
  rw [hpath, nullFree_append_iff] at h
  refine ⟨?_, h.2⟩
  rcases hfst with hfst | hfst <;> rw [hfst]
  · exact h.1
  · obtain ⟨slashes, -, hhead⟩ := exists_dropSlashes head
    rw [hhead, nullFree_append_iff] at h
    exact h.1.1

theorem NullFree.splitPart (h : NullFree path) : NullFree (splitPart path).1 := by
  rw [Files.splitPart]
  split
  · exact h.splitLast.1.splitLast.1
  · exact h.splitLast.1

theorem NullFree.joinText {folder : String} (hfolder : NullFree folder) (h : NullFree path) :
    NullFree (joinText folder path) := by
  rw [Files.joinText]
  split
  · exact h
  · split
    · exact nullFree_append_iff.mpr ⟨hfolder, h⟩
    · exact nullFree_append_iff.mpr ⟨nullFree_append_iff.mpr ⟨hfolder, by decide⟩, h⟩

end Parts

namespace Path

variable {p : Path}

structure NullFree (p : Path) : Prop where
  root : Files.NullFree p.root
  parts : ∀ part ∈ p.parts, Files.NullFree part

theorem nullFree_ofText (h : Files.NullFree path) : (ofText path).NullFree := by
  constructor
  · have hroot : (ofText path).root = rootOf path := rfl
    rw [hroot]
    rcases rootOf_cases path with ⟨hroot, -⟩ | ⟨hroot | hroot, -⟩ <;> rw [hroot] <;> decide
  · intro part hpart
    rw [parts_ofText] at hpart
    exact nullFree_iff_filled.mp h part (List.mem_of_mem_filter hpart)

theorem NullFree.text (h : p.NullFree) : Files.NullFree p.text := by
  rw [Path.text]
  split
  · decide
  · exact nullFree_append_iff.mpr ⟨h.root, nullFree_intercalate h.parts⟩

theorem NullFree.parent (h : p.NullFree) : p.parent.NullFree :=
  ⟨h.root, fun part hpart => h.parts part (List.dropLast_subset _ hpart)⟩

theorem NullFree.join (h : p.NullFree) {child : String} (hchild : Files.NullFree child) :
    (p.join child).NullFree := by
  have hc := nullFree_ofText hchild
  rw [Path.join]
  split
  · exact ⟨h.root, List.forall_mem_append.mpr ⟨h.parts, hc.parts⟩⟩
  · exact hc

theorem NullFree.name (h : p.NullFree) : Files.NullFree p.name := by
  rw [Path.name, List.getLastD_eq_getLast?]
  cases hlast : p.parts.getLast? with
  | none => decide
  | some part => exact h.parts part (List.mem_of_getLast? hlast)

theorem NullFree.splitName (h : p.NullFree) : Files.NullFree p.stem ∧ Files.NullFree p.suffix := by
  rw [← nullFree_append_iff, Path.stem, Path.suffix, splitName_append]
  exact h.name

end Path

namespace Disk

variable {d : Disk} {bytes : Text.Bytes}

theorem fault_ne_nullByte (o : Obstacle) : o.fault path ≠ .nullByte := by
  cases o <;> simp [Obstacle.fault]

theorem size_ne_nullByte : d.size path ≠ .error .nullByte := by
  rw [size]
  cases d.locate path with
  | error o => simpa using fault_ne_nullByte o
  | ok place =>
      cases hget : d.get? place with
      | none => simp [hget]
      | some c => cases c <;> simp [hget]

theorem read_ne_nullByte : d.read path ≠ .error .nullByte := by
  rw [read]
  cases d.locate path with
  | error o => simpa using fault_ne_nullByte o
  | ok place =>
      simp only [ne_eq]
      split
      · simp
      · cases hget : d.get? place with
        | none => simp
        | some c => cases c <;> simp

theorem write_ne_nullByte (h : NullFree path) : d.write path bytes ≠ .error .nullByte := by
  rw [write, if_neg (by simpa [NullFree] using h)]
  split
  · split
    · simpa using fault_ne_nullByte _
    · simp
  · cases d.locate path with
    | error o => simpa using fault_ne_nullByte o
    | ok place =>
        simp only [ne_eq]
        split
        · simp
        · cases hget : d.get? place with
          | none => simp
          | some c => cases c <;> simp

theorem makeFolder_ne_nullByte (h : NullFree path) : d.makeFolder path ≠ .error .nullByte := by
  rw [makeFolder, if_neg (by simpa [NullFree] using h)]
  cases d.entryOf (withoutSlashes path) with
  | error o => simpa using fault_ne_nullByte o
  | ok place =>
      cases hget : d.get? place with
      | some c => simp [hget]
      | none =>
          simp only [hget, ne_eq]
          split <;> simp

theorem ensureFolder_ne_nullByte (h : NullFree path) : (d.ensureFolder path).2 ≠ some .nullByte := by
  have hmake := makeFolder_ne_nullByte (d := d) h
  rw [ensureFolder]
  cases hmade : d.makeFolder path with
  | ok d' => simp
  | error f =>
      rw [hmade] at hmake
      simp only [ne_eq]
      split
      · simp
      · simpa using hmake

theorem ensureFoldersUpTo_ne_nullByte (h : NullFree path) (levels : Nat) :
    (d.ensureFoldersUpTo path levels).2 ≠ some .nullByte := by
  induction levels generalizing path with
  | zero => exact ensureFolder_ne_nullByte h
  | succ levels ih =>
      obtain h₁ | ⟨made, f, hparents, hlast⟩ := ensureFoldersUpTo_cases d path levels
      · rw [h₁]
        exact ensureFolder_ne_nullByte h
      · have hmade := ih h.splitPart
        rw [hparents] at hmade
        obtain h₁ | h₁ | h₁ := hlast <;> rw [h₁]
        · simp
        · exact ensureFolder_ne_nullByte h
        · exact hmade

theorem copy_ne_nullByte {target : String} (h : NullFree path) (htarget : NullFree target) :
    d.copy path target ≠ .error .nullByte := by
  have hread : d.read path ≠ .error .nullByte := read_ne_nullByte
  have hinto : NullFree (if d.isFolder target then joinText target (splitLast path).2 else target) := by
    split
    · exact htarget.joinText h.splitLast.2
    · exact htarget
  rw [copy]
  generalize (if d.isFolder target then joinText target (splitLast path).2 else target) = into at hinto
  cases d.isSame path into with
  | true => simp [bind, Except.bind]
  | false =>
      cases hbytes : d.read path with
      | error f =>
          rw [hbytes] at hread
          simpa [bind, Except.bind] using hread
      | ok bytes => exact write_ne_nullByte hinto

/-- No file or folder has a null character in its name. -/
def NullFree (d : Disk) : Prop := ∀ e ∈ d.entries, ∀ name ∈ e.1, Files.NullFree name

instance : DecidablePred NullFree := fun d =>
  inferInstanceAs (Decidable (∀ e ∈ d.entries, ∀ name ∈ e.1, Files.NullFree name))

namespace NullFree

theorem of_get? (h : d.NullFree) {place : Place} {c : Content} (hget : d.get? place = some c) :
    ∀ name ∈ place, Files.NullFree name := by
  rw [get?] at hget
  split at hget
  next hempty => simp [List.isEmpty_iff.mp hempty]
  next =>
    obtain ⟨before, after, hentries, -⟩ := List.lookup_eq_some_iff.mp hget
    exact h (place, c) (by simp [hentries])

/-- A step that leads to something has a name that the disk has. -/
theorem of_follow_singleton (h : d.NullFree) {left : Nat} {place : Place} {part : String}
    {q : Place × Nat} {c : Content} (hfollow : d.follow left place [part] = .ok q)
    (hget : d.get? q.1 = some c) : Files.NullFree part := by
  obtain ⟨c', hstep⟩ : ∃ c', d.get? (step place part) = some c' := by
    cases hpointer : d.pointer? (step place part) with
    | some c' => exact ⟨c', (pointer?_eq_some_iff.mp hpointer).1⟩
    | none =>
        rw [follow_of_plain (isFolder_of_follow hfollow) hpointer, follow_nil] at hfollow
        rw [← Except.ok.inj hfollow] at hget
        exact ⟨c, hget⟩
  have hnames := h.of_get? hstep
  rw [step] at hnames
  by_cases hdot : part = "."
  · subst hdot
    decide
  · by_cases hup : part = ".."
    · subst hup
      decide
    · rw [if_neg hdot, if_neg hup] at hnames
      exact hnames part (by simp)

theorem of_follow (h : d.NullFree) {left : Nat} {place : Place} {q : Place × Nat} {parts : List String}
    {c : Content} (hfollow : d.follow left place parts = .ok q) (hget : d.get? q.1 = some c) :
    ∀ part ∈ parts, Files.NullFree part := by
  induction parts generalizing left place with
  | nil => simp
  | cons part parts ih =>
      obtain ⟨p, hp, hrest⟩ := follow_append_eq_ok_iff.mp (List.singleton_append ▸ hfollow)
      refine List.forall_mem_cons.mpr ⟨?_, ih hrest⟩
      cases parts with
      | nil =>
          rw [follow_nil] at hrest
          rw [← Except.ok.inj hrest] at hget
          exact h.of_follow_singleton hp hget
      | cons next rest => exact h.of_follow_singleton hp (isFolder_of_follow hrest)

theorem of_isFile (h : d.NullFree) (hfile : d.isFile path = true) : Files.NullFree path := by
  obtain ⟨place, bytes, hlocate, hget⟩ := isFile_iff.mp hfile
  obtain ⟨-, left, hfollow⟩ := locate_eq_ok_iff.mp hlocate
  have hparts := h.of_follow hfollow hget
  refine nullFree_iff_filled.mpr fun part hpart => hparts part ?_
  rcases partsOf_eq path with heq | heq <;> rw [heq]
  · exact hpart
  · exact List.mem_append_left _ hpart

end NullFree

end Disk

end Pseudonym.Files
