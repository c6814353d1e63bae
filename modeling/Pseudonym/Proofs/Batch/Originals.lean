import Pseudonym.Proofs.Batch.Footprint

namespace Pseudonym

open Files (Disk Place Path IsName)
open Report (FileResult)
open Text (Bytes)

variable {σ : Type}

namespace Batch

/-- The log is not written where a path leads to. -/
def World.LogsApart (w : World σ) (path : String) : Prop :=
  ∀ log ∈ w.logPaths, ∀ place, w.disk.locate log = .ok place → w.disk.locate path ≠ .ok place

variable {b : Batch σ} {w w' : World σ} {d d₁ d₂ : Disk} {input output path suffix last name : String}
  {parent place : Place} {left : Nat} {bytes : Bytes}

section Places

/-- The output stands beside the input, under a longer name. -/
theorem ends_outputPath (h : d.Ends input parent left last)
    (hsuffix : b.options.outputSuffix.display = some suffix) (hne : suffix ≠ "")
    (hslash : '/' ∉ suffix.toList) :
    ∃ out name, b.outputPath input = .ok out ∧ IsName name ∧ last.length < name.length ∧
      d.Ends out parent left name := by
  have hparts := Path.splitName_append last
  have hname : IsName ((Path.splitName last).1 ++ suffix ++ (Path.splitName last).2) := by
    refine Disk.isName_insert ?_ ?_ hne hslash <;> rw [hparts]
    · exact h.part
    · exact h.ne_dot
  have hout : b.outputPath input = .ok ((Path.ofText input).parent.join
      ((Path.splitName last).1 ++ suffix ++ (Path.splitName last).2)).text := by
    rw [outputPath, Value.asText, hsuffix, Path.stem, Path.suffix, h.name_eq]
    rfl
  refine ⟨_, _, hout, hname, ?_, h.sibling hname⟩
  have hlength := congrArg String.length hparts
  have hmore := String.length_eq_zero_iff.not.mpr hne
  simp only [String.length_append] at hlength ⊢
  omega

/-- What a run leaves stands in the folder of the output. -/
theorem ends_written (h : d.Ends output parent left name) (hpath : path ∈ b.written output) :
    ∃ ending ∈ ["", ".mapping.json"], d.Ends path parent left (name ++ ending) := by
  rcases List.mem_cons.mp hpath with rfl | hmapping
  · exact ⟨"", by simp, by rwa [String.append_empty]⟩
  · split at hmapping
    · obtain rfl := List.mem_singleton.mp hmapping
      exact ⟨".mapping.json", by simp, h.extended (by decide) (by decide)⟩
    · cases hmapping

theorem isName_written {ending : String} (hname : IsName name) (h : ending ∈ ["", ".mapping.json"]) :
    IsName (name ++ ending) := by
  rcases List.mem_pair.mp h with rfl | rfl
  · rwa [String.append_empty]
  · exact Disk.isName_append hname.1 (by decide) (by decide)

theorem append_mapping_ne_append_backup : name ++ ".mapping.json" ≠ last ++ ".backup" := by
  intro h
  have hlast := congrArg (fun s : String => s.toList.getLast?) h
  simp at hlast

/-- A place that has no second name is where the paths to it end. -/
theorem eq_step_of_locate (h : d.Ends path parent left last)
    (hlinks : ∀ p target, d.get? p ≠ some (.link target))
    (hsecond : ∀ p, d.get? p ≠ some (.sameAs place)) (hlocate : d.locate path = .ok place) :
    place = Disk.step parent last := by
  obtain ⟨place', hlocate', hplace | hget⟩ := h.exists_locate (hlinks _)
  · rw [Except.ok.inj (hlocate.symm.trans hlocate'), hplace]
  · obtain rfl := Except.ok.inj (hlocate.symm.trans hlocate')
    exact absurd hget (hsecond _)

theorem eq_of_locate_sibling (h : d.Ends path parent left name) (hname : IsName name)
    (hlinks : ∀ p target, d.get? p ≠ some (.link target))
    (hsecond : ∀ p, d.get? p ≠ some (.sameAs place)) (hlocate : d.locate path = .ok place) :
    place = parent ++ [name] := by
  rw [eq_step_of_locate h hlinks hsecond hlocate, Disk.step_of_isName hname]

/-- A path beside the input, under a longer name, leads to another place. -/
theorem exists_locate_ne (hends : d.Ends input parent left last) (hplace : d.locate input = .ok place)
    (hlinks : ∀ p target, d.get? p ≠ some (.link target))
    (hsecond : ∀ p, d.get? p ≠ some (.sameAs place)) (hpath : d.Ends path parent left name)
    (hname : IsName name) (hlonger : last.length < name.length) :
    ∃ q, d.locate path = .ok q ∧ place ≠ q := by
  obtain ⟨q, hlocate, -⟩ := hpath.exists_locate (hlinks _)
  refine ⟨q, hlocate, ?_⟩
  rintro rfl
  have hown := eq_step_of_locate hends hlinks hsecond hplace
  have hsibling := eq_of_locate_sibling hpath hname hlinks hsecond hlocate
  exact hends.step_ne_of_length_lt hlonger (hown.symm.trans hsibling)

/-- What lies where neither the output nor the report nor the log is written stays as it is. -/
theorem grown_of_touches_written (houtput : d.Ends output parent left name) (hname : IsName name)
    (hlinks : ∀ p target, d.get? p ≠ some (.link target))
    (hsecond : ∀ p, d.get? p ≠ some (.sameAs place))
    (hne : ∀ ending ∈ ["", ".mapping.json"], place ≠ parent ++ [name ++ ending]) (hkeeps : d.Keeps d₁)
    (hlog : ∀ log ∈ w.logPaths, d₂.locate log ≠ .ok place)
    (htouches : d₁.Touches (b.written output ++ w.logPaths) d₂) : d₁.Grown d₂ place := by
  refine htouches.grown fun path hpath hlocate => ?_
  rcases List.mem_append.mp hpath with hwritten | hlogged
  · obtain ⟨ending, hending, hends⟩ := ends_written houtput hwritten
    have hname' := isName_written hname hending
    -- The path led somewhere from the start, and leads there still.
    obtain ⟨place', hlocate', -⟩ := hends.exists_locate (hlinks _)
    have hsame := ((hkeeps.trans htouches.toKeeps).locate hlocate').symm.trans hlocate
    obtain rfl := Except.ok.inj hsame
    exact hne ending hending (eq_of_locate_sibling hends hname' hlinks hsecond hlocate')
  · exact hlog path hlogged hlocate

theorem keeps_of_saved (h : d₁ = d ∨ b.BackedUp d input d₁) : d.Keeps d₁ := by
  rcases h with rfl | h
  · exact .refl _
  · exact h.alters.toKeeps

/-- The input is the same once its copy is made and the output is written. -/
theorem get?_of_touches_written (hends : d.Ends input parent left last)
    (houtput : d.Ends output parent left name) (hname : IsName name) (hlonger : last.length < name.length)
    (hlinks : ∀ p target, d.get? p ≠ some (.link target))
    (hsecond : ∀ p, d.get? p ≠ some (.sameAs place)) (hplace : d.locate input = .ok place)
    (hget : d.get? place = some (.file bytes)) (hsaved : d₁ = d ∨ b.BackedUp d input d₁)
    (hlog : ∀ log ∈ w.logPaths, d₂.locate log ≠ .ok place)
    (htouches : d₁.Touches (b.written output ++ w.logPaths) d₂) :
    d₂.get? place = some (.file bytes) := by
  have hapart : ∀ ending ∈ ["", ".mapping.json"], place ≠ parent ++ [name ++ ending] := by
    intro ending _
    rw [eq_step_of_locate hends hlinks hsecond hplace]
    apply hends.step_ne_of_length_lt
    rw [String.length_append]
    omega
  have hcopied : d₁.get? place = some (.file bytes) := by
    rcases hsaved with rfl | hsaved
    · exact hget
    · exact hsaved.get?_input b hplace hget
  exact (grown_of_touches_written houtput hname hlinks hsecond hapart (keeps_of_saved hsaved) hlog
    htouches).eq_of_some hcopied

/-- A copy beside the input is the backup itself: one in a folder lies deeper, or above. -/
theorem eq_of_locate_backupPath (h : d.Ends input parent left last)
    (hlinks : ∀ p target, d.get? p ≠ some (.link target))
    (hseconds : ∀ p q, d.get? p = some (.sameAs q) →
      d.locate (input ++ ".backup") ≠ .ok q ∧ d.locate (backupPath d input) ≠ .ok q)
    (hlocate : d.locate (backupPath d input) = .ok (parent ++ [name])) : name = last ++ ".backup" := by
  have hends : d.Ends (input ++ ".backup") parent left (last ++ ".backup") :=
    h.append (by decide) (by decide)
  have hname : IsName (last ++ ".backup") := Disk.isName_append h.part (by decide) (by decide)
  have hbackup : ∀ q, d.locate (input ++ ".backup") = .ok q → q = parent ++ [last ++ ".backup"] :=
    fun q hq => eq_of_locate_sibling hends hname hlinks (fun p hp => (hseconds p q hp).1 hq) hq
  rw [backupPath, Disk.copyPath] at hlocate hseconds
  split at hlocate
  next hfolder =>
    rw [if_pos hfolder] at hseconds
    obtain ⟨folder, hfound, hget⟩ := Disk.isFolder_iff.mp hfolder
    obtain rfl := hbackup folder hfound
    have htext : Path.text ⟨"", [last]⟩ = last := by simp [Path.text]
    obtain ⟨left', hbelow⟩ := Disk.locate_joinText hfound
    have hcopy := hbelow [last] (by simpa using h.part) (by simp)
    rw [htext, ← h.snd_splitLast, hlocate, h.snd_splitLast] at hcopy
    -- From the folder one step goes down by two parts in all, or back to where both stand.
    have hstep : parent ++ [name] = Disk.step (parent ++ [last ++ ".backup"]) last := by
      obtain ⟨q, hfollow, hq⟩ := Disk.exists_follow_singleton hget (hlinks _) left'
      rw [hfollow] at hcopy
      obtain rfl : parent ++ [name] = q := Except.ok.inj hcopy
      exact hq.resolve_right fun hsecond => (hseconds _ _ hsecond).2 hlocate
    have hlengths := congrArg List.length hstep
    rw [Disk.step, if_neg h.ne_dot] at hlengths
    split at hlengths <;>
      simp only [List.length_append, List.length_dropLast, List.length_singleton] at hlengths <;> omega
  next => exact List.singleton_inj.mp (List.append_cancel_left (hbackup _ hlocate))

/-- The copy is the same once the output is written, unless the output is written over it. -/
theorem BackedUp.holds_backupPath (h : b.BackedUp d input d₁) (hbackups : b.options.backup = true)
    (hplace : d.locate input = .ok place) (hget : d.get? place = some (.file bytes))
    (hends : d.Ends input parent left last) (houtput : d.Ends output parent left name)
    (hname : IsName name) (hne : name ≠ last ++ ".backup")
    (hlinks : ∀ p target, d.get? p ≠ some (.link target))
    (hseconds : ∀ p q, d.get? p = some (.sameAs q) →
      d.locate (input ++ ".backup") ≠ .ok q ∧ d.locate (backupPath d input) ≠ .ok q)
    (hlog : ∀ log ∈ w.logPaths, ∀ q, d₂.locate log = .ok q → d₂.locate (backupPath d input) ≠ .ok q)
    (htouches : d₁.Touches (b.written output ++ w.logPaths) d₂) :
    d₂.Holds (backupPath d input) bytes := by
  rcases h with ⟨hnone, -⟩ | ⟨-, copied, hcopied, hwrite⟩
  · cases hnone.symm.trans hbackups
  obtain rfl : copied = bytes := by
    obtain ⟨place', hplace', -, hget'⟩ := Disk.read_eq_ok_iff.mp hcopied
    obtain rfl := Except.ok.inj (hplace.symm.trans hplace')
    rw [hget] at hget'
    simpa [eq_comm] using hget'
  obtain ⟨copy, hcopy, -⟩ := Disk.write_cases hwrite
  obtain ⟨copy', hcopy', hheld⟩ := Disk.holds_of_write hwrite
  have hkeeps := Disk.write_keeps hwrite
  obtain rfl := Except.ok.inj ((hkeeps.locate hcopy).symm.trans hcopy')
  have hfinal := htouches.toKeeps.locate hcopy'
  have hapart : ∀ ending ∈ ["", ".mapping.json"], copy ≠ parent ++ [name ++ ending] := by
    rintro ending hending rfl
    have hnames := eq_of_locate_backupPath hends hlinks hseconds hcopy
    rcases List.mem_pair.mp hending with rfl | rfl
    · rw [String.append_empty] at hnames
      exact hne hnames
    · exact append_mapping_ne_append_backup hnames
  have hgrown := grown_of_touches_written houtput hname hlinks (fun p hp => (hseconds p copy hp).2 hcopy)
    hapart hkeeps (fun log hmem hfound => hlog log hmem copy hfound hfinal) htouches
  exact ⟨copy, hfinal, hheld.imp hgrown.eq_of_some hgrown.eq_of_some⟩

end Places

/-- Without links, what is written for a file never goes to the file itself, unless that has a second
name, and the copy is there in the end. -/
theorem processFile_keeps_input (language : Value) (hplace : w.disk.locate input = .ok place)
    (hget : w.disk.get? place = some (.file bytes))
    (hlinks : ∀ p target, w.disk.get? p ≠ some (.link target))
    (hsecond : ∀ p, w.disk.get? p ≠ some (.sameAs place))
    (hlog : (b.processFile input none language w).2.LogsApart input)
    (hsuffix : b.options.outputSuffix.display = some suffix) (hne : suffix ≠ "")
    (hslash : '/' ∉ suffix.toList) :
    ∃ (out : String) (output report backup : Place), b.outputPath input = .ok out ∧
      w.disk.locate out = .ok output ∧ w.disk.locate (mappingPath out) = .ok report ∧
      w.disk.locate (input ++ ".backup") = .ok backup ∧
      place ≠ output ∧ place ≠ report ∧ place ≠ backup ∧
      (b.processFile input none language w).2.disk.locate input = .ok place ∧
      (b.processFile input none language w).2.disk.get? place = some (.file bytes) ∧
      ∀ r w', b.processFile input none language w = (.ok r, w') → r.success = true →
        b.options.backup = true → output ≠ backup →
        (∀ p q, w.disk.get? p = some (.sameAs q) →
          w.disk.locate (input ++ ".backup") ≠ .ok q ∧ w.disk.locate (backupPath w.disk input) ≠ .ok q) →
        w'.LogsApart (backupPath w.disk input) →
          w'.disk.Holds (backupPath w.disk input) bytes ∧
          (w'.disk.Holds (input ++ ".backup") bytes ↔
            w.disk.isFolder (input ++ ".backup") = false) := by
  obtain ⟨parent, left, last, hends⟩ := Disk.exists_ends hplace (by simp [hget])
  obtain ⟨out, name, hout, hname, hlonger, houtput⟩ := ends_outputPath hends hsuffix hne hslash
  have hreport : w.disk.Ends (mappingPath out) parent left (name ++ ".mapping.json") :=
    houtput.extended (by decide) (by decide)
  have hreportName := isName_written hname (List.mem_pair.mpr (.inr rfl))
  have hbackup : w.disk.Ends (input ++ ".backup") parent left (last ++ ".backup") :=
    hends.append (by decide) (by decide)
  have hbackupName : IsName (last ++ ".backup") :=
    Disk.isName_append hends.part (by decide) (by decide)
  have hreportLonger : last.length < (name ++ ".mapping.json").length := by
    rw [String.length_append]
    omega
  have hbackupLonger : last.length < (last ++ ".backup").length := by
    rw [String.length_append]
    exact Nat.lt_add_of_pos_right (by decide)
  obtain ⟨output, hlocate, hneOutput⟩ :=
    exists_locate_ne hends hplace hlinks hsecond houtput hname hlonger
  obtain ⟨report, hlocateReport, hneReport⟩ :=
    exists_locate_ne hends hplace hlinks hsecond hreport hreportName hreportLonger
  obtain ⟨backup, hlocateBackup, hneBackup⟩ :=
    exists_locate_ne hends hplace hlinks hsecond hbackup hbackupName hbackupLonger
  have houtputOf : b.outputOf input none = .ok out := hout
  obtain ⟨hlogger, d, hsaved, htouches⟩ := processFile_touches houtputOf language w
  have hpaths : (b.processFile input none language w).2.logPaths = w.logPaths := by
    rw [World.logPaths, hlogger, World.logPaths]
  have hfinal := ((keeps_of_saved hsaved).trans htouches.toKeeps).locate hplace
  refine ⟨out, output, report, backup, hout, hlocate, hlocateReport, hlocateBackup, hneOutput, hneReport,
    hneBackup, hfinal, ?_, ?_⟩
  · have hlog' : ∀ log ∈ w.logPaths,
        (b.processFile input none language w).2.disk.locate log ≠ .ok place := by
      intro log hmem hfound
      exact hlog log (hpaths ▸ hmem) place hfound hfinal
    exact get?_of_touches_written hends houtput hname hlonger hlinks hsecond hplace hget hsaved hlog'
      htouches
  · intro r w' h hsuccess hbackups hne hseconds hlogs
    rw [h] at hpaths
    obtain ⟨-, out', hasked, houtcome⟩ := processFile_outcome h
    obtain ⟨hfile, d₁, -, hsaved, -, htouches, -⟩ := houtcome.of_success hsuccess
    obtain rfl : out = out' := Except.ok.inj (hout.symm.trans (hasked hfile).1)
    have hkeeps := hsaved.alters.toKeeps.trans htouches.toKeeps
    have hnames : name ≠ last ++ ".backup" := by
      rintro rfl
      rw [houtput.locate_eq, ← hbackup.locate_eq] at hlocate
      exact hne (Except.ok.inj (hlocate.symm.trans hlocateBackup))
    have hcopy := hsaved.holds_backupPath hbackups hplace hget hends houtput hname hnames hlinks hseconds
      (fun log hmem => hlogs log (hpaths ▸ hmem)) htouches
    refine ⟨hcopy, ?_, ?_⟩
    · intro hheld
      rw [← Bool.not_eq_true]
      exact fun hfolder => hkeeps.not_holds hfolder hheld
    · intro hfolder
      rwa [backupPath, Disk.copyPath, hfolder] at hcopy

def beside (suffix : String) : Batch Nat :=
  { sample with options := { sample.options with outputSuffix := .text suffix } }

def dottedWorld : World Nat where
  disk := { entries := [(["d"], .folder), (["d", ".a."], .file (Text.encode "a=b.#a"))] }
  state := 0

theorem processFile_keeps_input_dotted :
    (beside ".").outputPath "d/.//.a." = .ok "d/.a.." ∧
      ∃ r w', (beside ".").processFile "d/.//.a." none .null dottedWorld = (.ok r, w') ∧
        r.success = true ∧ w'.disk.get? ["d", ".a."] = some (.file (Text.encode "a=b.#a")) ∧
        w'.disk.Holds ("d/.//.a." ++ ".backup") (Text.encode "a=b.#a") := by
  obtain ⟨r, w', h, hsuccess⟩ := exists_of_any_success
    (x := (beside ".").processFile "d/.//.a." none .null dottedWorld) (by decide +kernel)
  have hplace : dottedWorld.disk.locate "d/.//.a." = .ok ["d", ".a."] := by decide +kernel
  have hget : dottedWorld.disk.get? ["d", ".a."] = some (.file (Text.encode "a=b.#a")) := by
    decide +kernel
  have hpointers : ∀ e ∈ dottedWorld.disk.entries, e.2.leadsOn = false := by decide
  have hsecond : ∀ p q, dottedWorld.disk.get? p ≠ some (.sameAs q) := fun _ _ =>
    Disk.get?_ne_of_leadsOn hpointers rfl
  have houtput : (beside ".").outputPath "d/.//.a." = .ok "d/.a.." := rfl
  have hlogger : w'.logPaths = [] := by
    have houtputOf : (beside ".").outputOf "d/.//.a." none = .ok "d/.a.." := rfl
    have hlogger := (processFile_touches houtputOf .null dottedWorld).1
    rw [h] at hlogger
    rw [World.logPaths, hlogger]
    rfl
  have hapart : ∀ path, w'.LogsApart path := by
    intro path log hlog
    rw [hlogger] at hlog
    cases hlog
  obtain ⟨out, output, report, backup, hout, hlocate, -, hbackup, -, -, -, -, hkept, hcopies⟩ :=
    processFile_keeps_input (b := beside ".") .null hplace hget
      (fun _ _ => Disk.get?_ne_of_leadsOn hpointers rfl) (hsecond · _) (by rw [h]; exact hapart _) rfl
      (by decide) (by decide)
  obtain rfl := Except.ok.inj (houtput.symm.trans hout)
  have hplaces : dottedWorld.disk.locate "d/.a.." ≠ dottedWorld.disk.locate ("d/.//.a." ++ ".backup") := by
    decide +kernel
  have hne : output ≠ backup := by
    rintro rfl
    exact hplaces (hlocate.trans hbackup.symm)
  have hheld := (hcopies r w' h hsuccess rfl hne (fun p q hp => absurd hp (hsecond p q)) (hapart _)).2.mpr
    (by decide +kernel)
  rw [h] at hkept
  exact ⟨houtput, r, w', h, hsuccess, hkept, hheld⟩

/-- A folder by the name of the backup takes the copy, and there is no file of that name. -/
theorem processFile_keeps_no_backup :
    (sample.processFile "a.js" none .null
        (sampleWorld [(["a.js.backup"], .folder)])).1.toOption.any (·.success) = true ∧
      sample.options.backup = true ∧
      sample.outputPath "a.js" = .ok "a_redacted.js" ∧
      (sampleWorld [(["a.js.backup"], .folder)]).disk.locate "a_redacted.js" ≠
        (sampleWorld [(["a.js.backup"], .folder)]).disk.locate ("a.js" ++ ".backup") ∧
      (sample.processFile "a.js" none .null
        (sampleWorld [(["a.js.backup"], .folder)])).2.disk.read ("a.js" ++ ".backup") =
          .error (.isADirectory "a.js.backup") := by
  decide +kernel

end Batch

end Pseudonym
