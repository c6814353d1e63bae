import Mathlib.Data.List.Induction
import Pseudonym.Proofs.Batch.Footprint
import Pseudonym.Proofs.Files.Selection

namespace Pseudonym

open Files (Disk Place Content Path IsName IsPart)
open Report (FileResult)
open Text (Bytes)

variable {σ : Type}

namespace Batch

section Targets

variable {rel rel' : List String}

/-- The parts of a report, from those of the output. -/
def reported (rel : List String) : List String :=
  rel.dropLast ++ [rel.getLastD "" ++ ".mapping.json"]

theorem reported_concat (init : List String) (last : String) :
    reported (init ++ [last]) = init ++ [last ++ ".mapping.json"] := by
  simp [reported]

theorem exists_concat (h : rel ≠ []) : ∃ init last, rel = init ++ [last] := by
  obtain ⟨init, last, hrel⟩ := (List.eq_nil_or_concat rel).resolve_left h
  exact ⟨init, last, hrel.trans (List.concat_eq_append ..)⟩

theorem reported_injective (h : rel ≠ []) (h' : rel' ≠ []) (heq : reported rel = reported rel') :
    rel = rel' := by
  obtain ⟨init, last, rfl⟩ := exists_concat h
  obtain ⟨init', last', rfl⟩ := exists_concat h'
  rw [reported_concat, reported_concat] at heq
  obtain ⟨rfl, hlast⟩ := List.append_inj' heq rfl
  have hlists := congrArg String.toList (List.singleton_inj.mp hlast)
  rw [String.toList_append, String.toList_append] at hlists
  rw [String.toList_injective (List.append_cancel_right hlists)]

theorem isName_reported (h : rel ≠ []) (hnames : ∀ name ∈ rel, IsName name) :
    ∀ name ∈ reported rel, IsName name := by
  obtain ⟨init, last, rfl⟩ := exists_concat h
  obtain ⟨hinit, hlast⟩ := List.forall_mem_append.mp hnames
  rw [reported_concat]
  refine List.forall_mem_append.mpr ⟨hinit, fun name hname => ?_⟩
  rw [List.mem_singleton.mp hname]
  exact Disk.isName_append (hlast last (List.mem_singleton_self _)).1 (by decide) (by decide)

theorem intercalate_concat (init : List String) (last ending : String) :
    "/".intercalate (init ++ [last ++ ending]) = "/".intercalate (init ++ [last]) ++ ending := by
  induction init with
  | nil => simp
  | cons part init ih =>
      rw [List.cons_append, List.cons_append, String.intercalate_cons_of_ne_nil (by simp),
        String.intercalate_cons_of_ne_nil (by simp), ih]
      simp only [String.append_assoc]

theorem text_reported (h : rel ≠ []) :
    (Files.Path.mk "" (reported rel)).text = (Files.Path.mk "" rel).text ++ ".mapping.json" := by
  obtain ⟨init, last, rfl⟩ := exists_concat h
  rw [reported_concat]
  simp [Path.text, intercalate_concat]

def outputFor (output : String) (rel : List String) : String :=
  Files.joinText output (Files.Path.mk "" rel).text

variable {d : Disk} {output : String} {place q : Place}

theorem parts_outputFor (houtput : output ≠ "") (hne : rel ≠ []) (hnames : ∀ name ∈ rel, IsName name) :
    (Path.ofText (outputFor output rel)).parts = (Path.ofText output).parts ++ rel ∧
      (outputFor output rel).toList.head? = output.toList.head? := by
  have hclean : (Files.Path.mk "" rel).Clean := ⟨.inl rfl, fun part hpart => (hnames part hpart).1⟩
  have hhead : (Files.Path.mk "" rel).text.toList.head? ≠ some '/' :=
    (Path.head?_text hclean).not.mpr (by simp)
  refine ⟨?_, Files.head?_joinText houtput hhead⟩
  have hfilled : Files.filled (Files.Path.mk "" rel).text = rel := by
    obtain ⟨blanks, hblanks, hsplit⟩ := Path.splitSlashes_text hclean hne
    rw [Files.filled, hsplit, List.filter_append,
      List.filter_eq_nil_iff.mpr fun blank hblank => by simp [hblanks blank hblank],
      List.filter_eq_self.mpr fun name hname => by simpa using (hnames name hname).1.1, List.nil_append]
  rw [Path.parts_ofText, outputFor, Files.filled_joinText hhead, hfilled, List.filter_append,
    ← Path.parts_ofText, List.filter_eq_self.mpr fun name hname => by simpa using (hnames name hname).2.1]

theorem eq_of_locate_output (hplace : d.locate output = .ok place)
    (hplain : ∀ parts, d.pointer? (place ++ parts) = none) (hne : rel ≠ [])
    (hnames : ∀ name ∈ rel, IsName name) (h : d.locate (outputFor output rel) = .ok q) :
    q = place ++ rel := by
  have hparts : ∀ part ∈ rel, IsPart part := fun part hpart => (hnames part hpart).1
  obtain ⟨left, hbelow⟩ := Disk.locate_joinText hplace
  obtain ⟨p, hfollow, rfl⟩ := Traversal.map_eq_ok_iff.mp ((hbelow rel hparts hne).symm.trans h)
  rw [Disk.eq_append_of_follow hnames hplain hfollow]

theorem eq_of_locate_report (hplace : d.locate output = .ok place)
    (hplain : ∀ parts, d.pointer? (place ++ parts) = none) (hne : rel ≠ [])
    (hnames : ∀ name ∈ rel, IsName name) (h : d.locate (mappingPath (outputFor output rel)) = .ok q) :
    q = place ++ reported rel := by
  have houtput := (Disk.locate_eq_ok_iff.mp hplace).1
  obtain ⟨hparts, hhead⟩ := parts_outputFor houtput hne hnames
  have hreported := isName_reported hne hnames
  have hextended : (Path.ofText (outputFor output rel)).extended ".mapping.json" =
      ⟨(Path.ofText (outputFor output rel)).root, (Path.ofText output).parts ++ reported rel⟩ := by
    rw [Path.extended_eq _ (Path.clean_ofText _) (by decide) (by decide), Path.name, hparts]
    obtain ⟨init, last, rfl⟩ := exists_concat hne
    rw [reported_concat]
    simp [← List.append_assoc]
  have hclean : ((Path.ofText (outputFor output rel)).extended ".mapping.json").Clean := by
    rw [hextended]
    exact ⟨(Path.clean_ofText _).root, List.forall_mem_append.mpr
      ⟨(Path.clean_ofText output).parts, fun part hpart => (hreported part hpart).1⟩⟩
  have horigin : d.origin ((Path.ofText (outputFor output rel)).extended ".mapping.json") =
      Disk.startFrom d.here output := by
    rw [hextended, Disk.startFrom, ← hhead, ← Disk.startFrom, ← Disk.origin_ofText]
    rfl
  have hlocate := (Disk.locate_text hclean).symm.trans h
  rw [horigin, hextended, if_neg (by simp [reported])] at hlocate
  obtain ⟨p, hfollow, rfl⟩ := Traversal.map_eq_ok_iff.mp hlocate
  obtain ⟨p₁, hp₁, hrest⟩ := Disk.follow_append_eq_ok_iff.mp hfollow
  obtain ⟨left, hplaced⟩ := Disk.follow_ofText hplace
  obtain rfl := Except.ok.inj (hplaced.symm.trans hp₁)
  rw [Disk.eq_append_of_follow hreported hplain hrest]

def targets (place : Place) (rel : List String) : List Place := [place ++ rel, place ++ reported rel]

theorem prefix_of_mem_targets (h : q ∈ targets place rel) : place <+: q := by
  rcases List.mem_pair.mp h with rfl | rfl <;> exact List.prefix_append _ _

theorem mem_targets_of_locate {b : Batch σ} (hplace : d.locate output = .ok place)
    (hplain : ∀ parts, d.pointer? (place ++ parts) = none) (hne : rel ≠ [])
    (hnames : ∀ name ∈ rel, IsName name) {path : String}
    (hpath : path ∈ b.written (outputFor output rel)) (h : d.locate path = .ok q) :
    q ∈ targets place rel := by
  have hcases : path = outputFor output rel ∨ path = mappingPath (outputFor output rel) := by
    rw [written] at hpath
    split at hpath
    · simpa using hpath
    · exact .inl (List.mem_singleton.mp hpath)
  rw [targets, List.mem_pair]
  rcases hcases with hpath | hpath
  · rw [hpath] at h
    exact .inl (eq_of_locate_output hplace hplain hne hnames h)
  · rw [hpath] at h
    exact .inr (eq_of_locate_report hplace hplain hne hnames h)

theorem nodup_targets {rels : List (List String)} (place : Place) (hne : ∀ rel ∈ rels, rel ≠ [])
    (hnodup : rels.Nodup) (hclash : ∀ rel ∈ rels, ∀ rel' ∈ rels, rel' ≠ reported rel) :
    (rels.flatMap (targets place)).Nodup := by
  rw [List.nodup_flatMap]
  refine ⟨fun rel hrel => ?_, hnodup.imp_of_mem fun {rel rel'} hrel hrel' hdiff => ?_⟩
  · simp [targets, hclash rel hrel rel hrel]
  · have hreports : reported rel ≠ reported rel' := fun h =>
      hdiff (reported_injective (hne rel hrel) (hne rel' hrel') h)
    simp [Function.onFun, targets, hdiff.symm, hreports.symm, hclash rel hrel rel' hrel',
      (hclash rel' hrel' rel hrel).symm]

end Targets

/-- Two folders that do not lie in one another and have no file in common. In the second one each
file has one name, and nothing leads on from there. -/
structure Apart (d : Disk) (source target : Place) : Prop where
  outside : ¬ source <+: target
  around : ¬ target <+: source
  unshared : ∀ parts first, d.get? (source ++ parts) = some (.sameAs first) → ¬ target <+: first
  plain : ∀ parts, d.pointer? (target ++ parts) = none

namespace Apart

variable {d d' : Disk} {source target : Place}

theorem not_prefix_home (h : Apart d source target) (parts : List String) :
    ¬ target <+: d.home (source ++ parts) := by
  intro hprefix
  rw [Disk.home] at hprefix
  split at hprefix
  next first hsecond => exact h.unshared parts first (Disk.pointer?_eq_some_iff.mp hsecond).1 hprefix
  next =>
    rcases List.prefix_or_prefix_of_prefix (List.prefix_append source parts) hprefix with hle | hle
    · exact h.outside hle
    · exact h.around hle

theorem of_keeps (h : Apart d source target) (hkeeps : d.Keeps d') : Apart d' source target := by
  refine ⟨h.outside, h.around, fun parts first hsecond => ?_, fun parts => ?_⟩
  · have hpointer := Disk.pointer?_eq_some_iff.mpr ⟨hsecond, rfl⟩
    rw [hkeeps.pointers] at hpointer
    exact h.unshared parts first (Disk.pointer?_eq_some_iff.mp hpointer).1
  · rw [hkeeps.pointers]
    exact h.plain parts

end Apart

/-- The log is kept out of two folders. -/
def LogsOutside (d : Disk) (source target : Place) (logs : List String) : Prop :=
  ∀ log ∈ logs, ∀ place, d.locate log = .ok place →
    ¬ target <+: place ∧ ∀ parts, d.home (source ++ parts) ≠ place

/-- The paths that a run over files writes to. -/
def outputs (b : Batch σ) (output : String) (rels : List (List String)) : List String :=
  rels.flatMap fun rel => b.written (outputFor output rel)

/-- Where the files of a run lie, and where they are written to, on the disk that it ends with. -/
structure Layout (d : Disk) (root : Path) (output : String) (source target : Place)
    (logs : List String) (rels : List (List String)) : Prop where
  output : d.locate output = .ok target
  inputs : ∀ rel ∈ rels, d.locate (root.below rel).text = .ok (d.home (source ++ rel))
  named : ∀ rel ∈ rels, rel ≠ [] ∧ ∀ name ∈ rel, IsName name
  apart : Apart d source target
  logs : LogsOutside d source target logs
  distinct : (rels.flatMap (targets target)).Nodup

namespace Layout

variable {b : Batch σ} {d d₀ : Disk} {root : Path} {output : String} {source target : Place}
  {logs : List String} {rel : List String} {rels : List (List String)}

theorem tail (h : Layout d root output source target logs (rel :: rels)) :
    Layout d root output source target logs rels := by
  have hdistinct := h.distinct
  rw [List.flatMap_cons] at hdistinct
  exact { h with
    inputs := fun rel' hrel' => h.inputs rel' (List.mem_cons_of_mem _ hrel')
    named := fun rel' hrel' => h.named rel' (List.mem_cons_of_mem _ hrel')
    distinct := hdistinct.of_append_right }

theorem mem_targets (h : Layout d root output source target logs rels) {path : String} {place : Place}
    (hpath : path ∈ b.outputs output rels) (hlocate : d.locate path = .ok place) :
    place ∈ rels.flatMap (targets target) := by
  obtain ⟨rel, hrel, hpath⟩ := List.mem_flatMap.mp hpath
  obtain ⟨hne, hnames⟩ := h.named rel hrel
  exact List.mem_flatMap.mpr
    ⟨rel, hrel, mem_targets_of_locate h.output h.apart.plain hne hnames hpath hlocate⟩

/-- No path of a run leads to a file of the input folder. -/
theorem locate_ne_home (h : Layout d root output source target logs rels) {path : String}
    (hpath : path ∈ b.outputs output rels ++ logs) (parts : List String) :
    d.locate path ≠ .ok (d.home (source ++ parts)) := by
  intro hlocate
  rcases List.mem_append.mp hpath with hpath | hpath
  · obtain ⟨rel, -, hmem⟩ := List.mem_flatMap.mp (h.mem_targets hpath hlocate)
    exact h.apart.not_prefix_home parts (prefix_of_mem_targets hmem)
  · exact (h.logs path hpath _ hlocate).2 parts rfl

/-- The paths for the other files do not lead to the two places of a file. -/
theorem locate_ne_target (h : Layout d root output source target logs (rel :: rels)) {path : String}
    (hpath : path ∈ b.outputs output rels ++ logs) {place : Place}
    (hplace : place ∈ targets target rel) : d.locate path ≠ .ok place := by
  intro hlocate
  rcases List.mem_append.mp hpath with hpath | hpath
  · have hdistinct := h.distinct
    rw [List.flatMap_cons] at hdistinct
    exact List.disjoint_of_nodup_append hdistinct hplace (h.tail.mem_targets hpath hlocate)
  · exact (h.logs path hpath _ hlocate).1 (prefix_of_mem_targets hplace)

theorem not_collides (h : Layout d root output source target logs (rel :: rels)) :
    ¬ b.Collides d (outputFor output rel) := by
  rintro ⟨-, place, hplace, hsame⟩
  obtain ⟨hne, hnames⟩ := h.named rel List.mem_cons_self
  have hdistinct := h.distinct
  rw [List.flatMap_cons, targets, ← eq_of_locate_output h.output h.apart.plain hne hnames hplace,
    ← eq_of_locate_report h.output h.apart.plain hne hnames hsame] at hdistinct
  simp at hdistinct

/-- What lies in the input folder stays as it is. -/
theorem source_grown (h : Layout d root output source target logs rels)
    (htouches : d₀.Touches (b.outputs output rels ++ logs) d) (parts : List String) :
    d₀.Grown d (source ++ parts) := by
  cases hpointer : d₀.pointer? (source ++ parts) with
  | some c =>
      have hpointer' := (htouches.pointers _).trans hpointer
      exact .inl ((Disk.pointer?_eq_some_iff.mp hpointer').1.trans
        (Disk.pointer?_eq_some_iff.mp hpointer).1.symm)
  | none =>
      have hhome : d.home (source ++ parts) = source ++ parts := by
        rw [Disk.home, htouches.pointers, hpointer]
      refine htouches.grown fun path hpath hlocate => h.locate_ne_home hpath parts ?_
      rw [hlocate, hhome]

end Layout

/-- A step of a run: its result, with the worlds before and after it. -/
structure Step (σ : Type) where
  before : World σ
  result : FileResult
  after : World σ

/-- A run over files, one after another. -/
inductive Run (b : Batch σ) (root : Path) (output : String) (language : Value) :
    World σ → List (List String) → List (Step σ) → World σ → Prop
  | nil (w : World σ) : Run b root output language w [] [] w
  | cons {rel : List String} {rels : List (List String)} {w w₁ w' : World σ} {r : FileResult}
      {steps : List (Step σ)}
      (hstep : b.processFile (root.below rel).text (some (outputFor output rel)) language w =
        (.ok r, w₁))
      (hrest : Run b root output language w₁ rels steps w') :
      Run b root output language w (rel :: rels) (⟨w, r, w₁⟩ :: steps) w'

theorem run_of_processAll {b : Batch σ} {root : Path} {output : String} {language : Value}
    {rels : List (List String)} {w w' : World σ} {results : List FileResult}
    (h : b.processAll root output language (rels.map root.below) w = (.ok results, w')) :
    ∃ steps, results = steps.map (·.result) ∧ Run b root output language w rels steps w' := by
  induction rels generalizing w results with
  | nil =>
      obtain ⟨rfl, rfl⟩ := Work.pure_eq_ok h
      exact ⟨[], rfl, .nil _⟩
  | cons rel rels ih =>
      have hdrop : (root.below rel).parts.drop root.parts.length = rel := List.drop_left
      rw [List.map_cons, processAll, hdrop] at h
      obtain ⟨r, w₁, hstep, h⟩ := Work.bind_eq_ok h
      obtain ⟨rest, w₂, hrest, h⟩ := Work.bind_eq_ok h
      obtain ⟨rfl, rfl⟩ := Work.pure_eq_ok h
      obtain ⟨steps, rfl, hrun⟩ := ih hrest
      exact ⟨⟨w, r, w₁⟩ :: steps, rfl, .cons hstep hrun⟩

/-- What a step of a run has delivered for a file is on a disk, and tells of the file as it is there. -/
structure Kept (b : Batch σ) (root : Path) (output : String) (target : Place) (d : Disk)
    (rel : List String) (step : Step σ) : Prop where
  inputPath : step.result.inputPath = (root.below rel).text
  delivered : step.result.success = true → ∃ redaction,
    b.redaction step.before.disk step.before.state (root.below rel).text step.result.language =
      .ok redaction ∧
    b.redaction d step.before.state (root.below rel).text step.result.language = .ok redaction ∧
    b.Delivers step.after.disk (outputFor output rel) redaction step.result ∧
    b.Delivers d (outputFor output rel) redaction step.result ∧ ¬ b.Collides d (outputFor output rel)
  outputAt : step.result.outputPath = none ∨
    (step.result.outputPath = some (outputFor output rel) ∧
      d.locate (outputFor output rel) = .ok (target ++ rel))
  reportAt : step.result.mappingPath = none ∨
    (step.result.mappingPath = some (mappingPath (outputFor output rel)) ∧
      d.locate (mappingPath (outputFor output rel)) = .ok (target ++ reported rel))

section Frames

variable {b : Batch σ} {root : Path} {output : String} {language : Value} {w w₁ w' : World σ}
  {r : FileResult} {step : Step σ} {steps : List (Step σ)} {rel : List String}
  {rels : List (List String)} {source target : Place}

theorem step_touches (hbackup : b.options.backup = false) {input out : String}
    (h : b.processFile input (some out) language w = (.ok r, w')) :
    w'.logPaths = w.logPaths ∧ w.disk.Touches (b.written out ++ w.logPaths) w'.disk := by
  have hout : b.outputOf input (some out) = .ok out := rfl
  obtain ⟨hlogger, d, hsaved, htouches⟩ := processFile_touches hout language w
  rw [h] at hlogger htouches
  refine ⟨by rw [World.logPaths, hlogger, World.logPaths], ?_⟩
  rcases hsaved with rfl | ⟨-, rfl⟩ | ⟨hyes, -⟩
  · exact htouches
  · exact htouches
  · cases hbackup.symm.trans hyes

theorem Run.touches (h : Run b root output language w rels steps w') (hbackup : b.options.backup = false) :
    w.disk.Touches (b.outputs output rels ++ w.logPaths) w'.disk := by
  induction h with
  | nil w => exact .refl _ _
  | cons hstep _ ih =>
      obtain ⟨hpaths, htouches⟩ := step_touches hbackup hstep
      rw [hpaths] at ih
      rw [outputs, List.flatMap_cons, List.append_assoc]
      refine (htouches.mono ?_).trans (ih.mono (List.subset_append_right _ _))
      exact List.append_subset.mpr ⟨List.subset_append_left _ _,
        List.subset_append_of_subset_right _ (List.subset_append_right _ _)⟩

theorem Collides.of_keeps {d d' : Disk} {out : String} (h : b.Collides d out) (hkeeps : d.Keeps d') :
    b.Collides d' out := by
  obtain ⟨hreport, place, hplace, hsame⟩ := h
  exact ⟨hreport, place, hkeeps.locate hplace, hkeeps.locate hsame⟩

theorem Delivers.of_touches {d d' : Disk} {out : String} {redaction : Redaction} {paths : List String}
    (h : b.Delivers d out redaction r) (htouches : d.Touches paths d')
    (hpaths : ∀ path ∈ paths, ∀ place, d'.locate path = .ok place →
      d.locate out ≠ .ok place ∧ d.locate (Batch.mappingPath out) ≠ .ok place) :
    b.Delivers d' out redaction r := by
  obtain ⟨codec, bytes, hcodec, hbytes, hcode⟩ := h.code
  refine { h with code := ⟨codec, bytes, hcodec, hbytes, ?_⟩, report := fun hreport => ?_ }
  · rcases hcode with hholds | hcollides
    · exact .inl (htouches.holds hholds fun place hplace path hpath hlocate =>
        (hpaths path hpath place hlocate).1 hplace)
    · exact .inr (hcollides.of_keeps htouches.toKeeps)
  · exact htouches.holds (h.report hreport) fun place hplace path hpath hlocate =>
      (hpaths path hpath place hlocate).2 hplace

theorem Outcome.tells {input out : String} {hint : Value} {d : Disk}
    (h : b.Outcome input out hint w r d) : Tells d out r := by
  cases h with
  | notAFile _ houtput => exact .inl houtput
  | notBackedUp _ houtput => exact .inl houtput
  | notRedacted _ houtput => exact .inl houtput
  | notWritten _ houtput => exact houtput
  | done _ _ _ _ hdelivers => exact .inr ⟨hdelivers.outputPath, hdelivers.exists_holds⟩

theorem Outcome.tells_report {input out : String} {hint : Value} {d : Disk}
    (h : b.Outcome input out hint w r d) :
    r.mappingPath = none ∨
      (r.mappingPath = some (mappingPath out) ∧ ∃ bytes, d.Holds (mappingPath out) bytes) := by
  cases h with
  | notAFile hr => exact .inl hr.2.2
  | notBackedUp hr => exact .inl hr.2.2
  | notRedacted hr => exact .inl hr.2.2
  | notWritten hr => exact .inl hr.2.2
  | done _ _ _ _ hdelivers =>
      have hpath := hdelivers.mappingPath
      split at hpath
      next hreport => exact .inr ⟨hpath, _, hdelivers.report hreport⟩
      next => exact .inl hpath

/-- A file is read at the end of a run as it was read in its step. -/
theorem Layout.read_eq {d d₀ : Disk} {logs : List String}
    (h : Layout d root output source target logs (rel :: rels))
    (htouches : d₀.Touches (b.outputs output (rel :: rels) ++ logs) d)
    (hfile : d₀.isFile (root.below rel).text = true) :
    d.read (root.below rel).text = d₀.read (root.below rel).text := by
  obtain ⟨place, bytes, hlocate, hget⟩ := Disk.isFile_iff.mp hfile
  have hlocate' := htouches.toKeeps.locate hlocate
  obtain rfl := Except.ok.inj ((h.inputs rel List.mem_cons_self).symm.trans hlocate')
  have hgrown := htouches.grown fun path hpath => h.locate_ne_home hpath rel
  exact Disk.read_congr hlocate hlocate' htouches.refused ((hgrown.eq_of_some hget).trans hget.symm)

theorem outcome_of_step {input out : String}
    (h : b.processFile input (some out) language w = (.ok r, w')) :
    r.inputPath = input ∧ b.Outcome input out r.language w r w'.disk := by
  obtain ⟨hinput, out', hasked, houtcome⟩ := processFile_outcome h
  refine ⟨hinput, ?_⟩
  cases hfile : w.disk.isFile input with
  | true =>
      obtain rfl := Except.ok.inj (hasked hfile).1
      exact houtcome
  | false =>
      generalize w'.disk = d at houtcome ⊢
      cases houtcome with
      | notAFile hr houtput hnot => exact .notAFile hr houtput hnot
      | notBackedUp _ _ hyes => cases hfile.symm.trans hyes
      | notRedacted _ _ hyes => cases hfile.symm.trans hyes
      | notWritten _ _ hyes => cases hfile.symm.trans hyes
      | done hyes => cases hfile.symm.trans hyes

theorem processAll_keeps {files : List Path} {results : List FileResult}
    (h : b.processAll root output language files w = (.ok results, w')) : w.disk.Keeps w'.disk := by
  induction files generalizing w results with
  | nil =>
      obtain ⟨-, rfl⟩ := Work.pure_eq_ok h
      exact .refl _
  | cons path files ih =>
      rw [processAll] at h
      obtain ⟨r, w₁, hstep, h⟩ := Work.bind_eq_ok h
      obtain ⟨rest, w₂, hrest, h⟩ := Work.bind_eq_ok h
      obtain ⟨-, rfl⟩ := Work.pure_eq_ok h
      exact (outcome_of_step hstep).2.touches.toKeeps.trans (ih hrest)

theorem kept_of_step (hbackup : b.options.backup = false)
    (hlayout : Layout w'.disk root output source target w.logPaths (rel :: rels))
    (hstep : b.processFile (root.below rel).text (some (outputFor output rel)) language w = (.ok r, w₁))
    (hrest : Run b root output language w₁ rels steps w') :
    Kept b root output target w'.disk rel ⟨w, r, w₁⟩ := by
  obtain ⟨hne, hnames⟩ := hlayout.named rel List.mem_cons_self
  have hwhole := (Run.cons hstep hrest).touches hbackup
  have hlater := hrest.touches hbackup
  rw [(step_touches hbackup hstep).1] at hlater
  -- Where the two paths led after the step they lead at the end.
  have houtput : ∀ place, w₁.disk.locate (outputFor output rel) = .ok place → place = target ++ rel :=
    fun place hplace => eq_of_locate_output hlayout.output hlayout.apart.plain hne hnames
      (hlater.toKeeps.locate hplace)
  have hreport : ∀ place, w₁.disk.locate (mappingPath (outputFor output rel)) = .ok place →
      place = target ++ reported rel :=
    fun place hplace => eq_of_locate_report hlayout.output hlayout.apart.plain hne hnames
      (hlater.toKeeps.locate hplace)
  obtain ⟨hinput, houtcome⟩ := outcome_of_step hstep
  refine ⟨hinput, fun hsuccess => ?_, ?_, ?_⟩
  · obtain ⟨hfile, -, redaction, -, hredaction, -, hdelivers⟩ := houtcome.of_success hsuccess
    have hread := b.redaction_congr (hlayout.read_eq hwhole hfile) w.state r.language
    refine ⟨redaction, hredaction, hread.trans hredaction, hdelivers,
      hdelivers.of_touches hlater fun path hpath place hlocate => ?_, hlayout.not_collides⟩
    constructor <;> intro hown <;> refine hlayout.locate_ne_target hpath ?_ hlocate
    · rw [houtput place hown]
      exact List.mem_pair.mpr (.inl rfl)
    · rw [hreport place hown]
      exact List.mem_pair.mpr (.inr rfl)
  · rcases houtcome.tells with hnone | ⟨hsome, -, place, hlocate, -⟩
    · exact .inl hnone
    · obtain rfl := houtput place hlocate
      exact .inr ⟨hsome, hlater.toKeeps.locate hlocate⟩
  · rcases houtcome.tells_report with hnone | ⟨hsome, -, place, hlocate, -⟩
    · exact .inl hnone
    · obtain rfl := hreport place hlocate
      exact .inr ⟨hsome, hlater.toKeeps.locate hlocate⟩

theorem Run.kept (h : Run b root output language w rels steps w') (hbackup : b.options.backup = false)
    (hlayout : Layout w'.disk root output source target w.logPaths rels) :
    List.Forall₂ (Kept b root output target w'.disk) rels steps := by
  induction h with
  | nil w => exact .nil
  | cons hstep hrest ih =>
      have hpaths := (step_touches hbackup hstep).1
      exact .cons (kept_of_step hbackup hlayout hstep hrest) (ih (hpaths ▸ hlayout.tail))

def paths (r : FileResult) : List String := r.outputPath.toList ++ r.mappingPath.toList

theorem Kept.exists_places {d : Disk} (h : Kept b root output target d rel step) :
    ∃ places, List.Forall₂ (fun path place => d.locate path = .ok place) (paths step.result) places ∧
      places.Sublist (targets target rel) := by
  rw [paths, targets]
  rcases h.outputAt with hout | ⟨hout, houtput⟩ <;> rcases h.reportAt with hrep | ⟨hrep, hreport⟩ <;>
    rw [hout, hrep]
  · exact ⟨[], .nil, List.nil_sublist _⟩
  · exact ⟨[_], .cons hreport .nil, by simp⟩
  · exact ⟨[_], .cons houtput .nil, by simp⟩
  · exact ⟨[_, _], .cons houtput (.cons hreport .nil), List.Sublist.refl _⟩

theorem exists_places_of_kept {d : Disk} (h : List.Forall₂ (Kept b root output target d) rels steps) :
    ∃ places, List.Forall₂ (fun path place => d.locate path = .ok place)
        ((steps.map (·.result)).flatMap paths) places ∧
      places.Sublist (rels.flatMap (targets target)) := by
  induction h with
  | nil => exact ⟨[], .nil, List.nil_sublist _⟩
  | cons hkept _ ih =>
      obtain ⟨places, hplaces, hsub⟩ := hkept.exists_places
      obtain ⟨rest, hrest, hsub'⟩ := ih
      exact ⟨places ++ rest, List.rel_append hplaces hrest, hsub.append hsub'⟩

end Frames

section Folder

variable {b : Batch σ} {folder : String} {output : Option String} {recursive : Bool}
  {language : Value} {w w' : World σ} {results : List FileResult}

/-- The output folder that is asked for, or one beside the input folder. -/
def outputFolder (folder : String) (output : Option String) : String :=
  output.getD (Files.dropSlashes folder ++ "_redacted")

theorem processFolder_eq_ok (h : b.processFolder folder output recursive language w = (.ok results, w')) :
    ∃ patterns files w₁ w₂, w.disk.ensureFolders (outputFolder folder output) = (w₁.disk, none) ∧
      w₁.state = w.state ∧ w₁.logPaths = w.logPaths ∧ b.options.patterns.items = .ok patterns ∧
      w₁.disk.findFiles folder recursive patterns = .ok files ∧
      b.processAll (Path.ofText folder) (outputFolder folder output) language files w₁ =
        (.ok results, w₂) ∧ w₂.disk = w'.disk := by
  obtain ⟨_, w₁, hmake, hmore⟩ := Work.bind_eq_ok h
  obtain ⟨hmade, hstate, hlogger⟩ := Work.makeFolders_eq_ok hmake
  obtain ⟨files, w₂, hfind, hrun⟩ := Work.bind_eq_ok hmore
  obtain ⟨patterns, w₃, hpatterns, hasked⟩ := Work.bind_eq_ok hfind
  obtain ⟨hitems, rfl⟩ := Work.ofResult_eq_ok hpatterns
  obtain ⟨d, w₄, hdisk, hresult⟩ := Work.bind_eq_ok hasked
  obtain ⟨rfl, rfl⟩ := Work.pure_eq_ok hdisk
  obtain ⟨hfiles, rfl⟩ := Work.ofResult_eq_ok hresult
  obtain ⟨w₅, hdisk, hstate', hlogger', hall⟩ := Work.tell_bind_eq_ok hrun
  obtain ⟨done, w₆, hdone, hlast⟩ := Work.bind_eq_ok hall
  obtain ⟨w₇, hdisk', -, -, hpure⟩ := Work.tell_bind_eq_ok hlast
  obtain ⟨rfl, rfl⟩ := Work.pure_eq_ok hpure
  refine ⟨patterns, files, w₅, w₆, hdisk ▸ hmade, hstate'.trans hstate, ?_, hitems, hdisk ▸ hfiles, hdone,
    hdisk'.symm⟩
  rw [World.logPaths, hlogger', hlogger, World.logPaths]

theorem findFiles_apply {patterns : List Value} (h : b.options.patterns.items = .ok patterns)
    (w : World σ) :
    b.findFiles folder recursive w = (w.disk.findFiles folder recursive patterns, w) := by
  rw [findFiles, h, Work.bind_apply, Work.ofResult_apply]
  exact Work.ofResult_apply _ w

def withPatterns (b : Batch σ) (patterns : List Value) : Batch σ :=
  { b with options := { b.options with patterns := .list patterns } }

theorem processAll_withPatterns (b : Batch σ) (patterns : List Value) (root : Path) (out : String)
    (language : Value) (files : List Path) :
    (b.withPatterns patterns).processAll root out language files =
      b.processAll root out language files := by
  induction files with
  | nil => rfl
  | cons path files ih =>
      rw [processAll, processAll]
      simp only [ih]
      rfl

/-- Patterns matter only for the files that they lead to. -/
theorem processFolder_withPatterns {patterns : List Value}
    (hfind : ∀ w₁ : World σ, w.disk.ensureFolders (outputFolder folder output) = (w₁.disk, none) →
      (b.withPatterns patterns).findFiles folder recursive w₁ = b.findFiles folder recursive w₁) :
    (b.withPatterns patterns).processFolder folder output recursive language w =
      b.processFolder folder output recursive language w := by
  rw [processFolder, processFolder]
  refine Work.bind_congr fun _ w₁ hmake => ?_
  rw [Work.bind_apply, hfind w₁ (Work.makeFolders_eq_ok hmake).1, ← Work.bind_apply]
  simp only [processAll_withPatterns]

/-- The parts of a file that is there and that some pattern asks for. -/
def Matched (d : Disk) (source : Place) (recursive : Bool) (patterns : List Value)
    (rel : List String) : Prop :=
  (∃ pattern ∈ patterns, Files.Selector.suits recursive pattern rel = true) ∧
    ∃ bytes, d.bytesAt? (source ++ rel) = some bytes

/-- Making folders neither makes nor changes files. -/
theorem matched_iff_of_touches {d d' : Disk} (h : d.Touches [] d') {source : Place}
    {patterns : List Value} {rel : List String} :
    Matched d' source recursive patterns rel ↔ Matched d source recursive patterns rel := by
  have hgrown : d.Grown d' (d.home (source ++ rel)) := h.grown fun _ hpath => absurd hpath List.not_mem_nil
  rw [Matched, Matched, h.toKeeps.bytesAt? hgrown]

/-- The files that are found lie where a run over them expects them. -/
theorem layout_of_matched {d d₁ : Disk} (hsound : d₁.Sound) (hkeeps : d₁.Keeps d) {source target : Place}
    {out : String} {logs : List String} {rels : List (List String)} {patterns : List Value}
    (hsource : d₁.locate (Path.ofText folder).text = .ok source)
    (hfolder : d₁.get? source = some .folder) (hlinks : d₁.Unlinked source)
    (htarget : d.locate out = .ok target) (hapart : Apart d source target)
    (hlogs : LogsOutside d source target logs) (hnodup : rels.Nodup)
    (hrels : ∀ rel ∈ rels, Matched d₁ source recursive patterns rel)
    (hclash : ∀ rel rel', Matched d₁ source recursive patterns rel →
      Matched d₁ source recursive patterns rel' →
        (Files.Path.mk "" rel').text ≠ (Files.Path.mk "" rel).text ++ ".mapping.json") :
    Layout d (Path.ofText folder) out source target logs rels := by
  have hthere : ∀ rel ∈ rels, ∃ c, d₁.get? (source ++ rel) = some c := by
    intro rel hrel
    obtain ⟨-, bytes, hbytes⟩ := hrels rel hrel
    exact Disk.Sound.exists_of_bytesAt? hbytes
  have hnamed : ∀ rel ∈ rels, rel ≠ [] ∧ ∀ name ∈ rel, IsName name := by
    intro rel hrel
    obtain ⟨c, hget⟩ := hthere rel hrel
    refine ⟨?_, fun name hname => hsound.isName hget name (List.mem_append_right _ hname)⟩
    rintro rfl
    obtain ⟨-, bytes, hbytes⟩ := hrels [] hrel
    rw [List.append_nil, Disk.bytesAt?_eq_some_iff, Disk.home_of_folder hfolder, hfolder] at hbytes
    cases hbytes
  refine ⟨htarget, fun rel hrel => ?_, hnamed, hapart, hlogs,
    nodup_targets target (fun rel hrel => (hnamed rel hrel).1) hnodup fun rel hrel rel' hrel' heq => ?_⟩
  · obtain ⟨c, hget⟩ := hthere rel hrel
    have hlink : ∀ text, c ≠ .link text := by
      rintro text rfl
      exact hlinks rel text hget
    rw [hkeeps.home]
    exact hkeeps.locate
      (Disk.locate_below_of_get? hsound (Path.clean_ofText folder) hsource hfolder hget hlink)
  · apply hclash rel rel' (hrels rel hrel) (hrels rel' hrel')
    rw [heq, text_reported (hnamed rel hrel).1]

/-- A run over a folder keeps what each of its steps has delivered, and the files of the folder. -/
theorem processFolder_keeps
    (h : b.processFolder folder output recursive language w = (.ok results, w'))
    (hsound : w.disk.Sound) (hbackup : b.options.backup = false) {patterns : List Value}
    (hitems : b.options.patterns.items = .ok patterns)
    (hdown : ∀ pattern, Value.text pattern ∈ patterns → ".." ∉ (Path.ofText pattern).parts)
    {source target : Place} (hsource : w'.disk.locate (Path.ofText folder).text = .ok source)
    (hfolder : w'.disk.get? source = some .folder) (hlinks : w.disk.Unlinked source)
    (htarget : w'.disk.locate (outputFolder folder output) = .ok target)
    (hapart : Apart w.disk source target) (hlogs : LogsOutside w'.disk source target w.logPaths)
    (hclash : ∀ rel rel', Matched w.disk source recursive patterns rel →
      Matched w.disk source recursive patterns rel' →
        (Files.Path.mk "" rel').text ≠ (Files.Path.mk "" rel).text ++ ".mapping.json") :
    ∃ (rels : List (List String)) (steps : List (Step σ)) (start stop : World σ),
      start.disk = (w.disk.ensureFolders (outputFolder folder output)).1 ∧ start.state = w.state ∧
      Run b (Path.ofText folder) (outputFolder folder output) language start rels steps stop ∧
      stop.disk = w'.disk ∧ results = steps.map (·.result) ∧
      rels.Pairwise (· < ·) ∧ (∀ rel, rel ∈ rels ↔ Matched w.disk source recursive patterns rel) ∧
      List.Forall₂ (Kept b (Path.ofText folder) (outputFolder folder output) target w'.disk) rels steps ∧
      (∃ places, List.Forall₂ (fun path place => w'.disk.locate path = .ok place)
        (results.flatMap paths) places ∧ places.Nodup) ∧
      (∀ parts, w.disk.Grown w'.disk (source ++ parts) ∧
        w'.disk.bytesAt? (source ++ parts) = w.disk.bytesAt? (source ++ parts)) ∧
      ∀ patterns', (∀ pattern, pattern ∈ patterns' ↔ pattern ∈ patterns) →
        (b.withPatterns patterns').processFolder folder output recursive language w =
          (.ok results, w') := by
  obtain ⟨patterns₁, files, w₁, w₂, hmade, hstate, hpaths, hitems₁, hfound, hall, hdisk⟩ :=
    processFolder_eq_ok h
  obtain rfl : patterns = patterns₁ := Except.ok.inj (hitems.symm.trans hitems₁)
  have hstart : (w.disk.ensureFolders (outputFolder folder output)).1 = w₁.disk := by rw [hmade]
  have hmaking := w.disk.ensureFolders_touches (outputFolder folder output)
  have hsound₁ := hsound.ensureFolders (outputFolder folder output)
  rw [hstart] at hmaking hsound₁
  -- If the input folder were not there when it is searched, nothing would be done.
  have hroot : w₁.disk.isFolder (Path.ofText folder).text = true := by
    by_contra hnot
    obtain rfl := Disk.findFiles_of_not_isFolder hfound (Bool.eq_false_iff.mpr hnot)
    obtain ⟨-, rfl⟩ := Work.pure_eq_ok hall
    rw [← hdisk] at hsource hfolder
    exact hnot (Disk.isFolder_iff.mpr ⟨source, hsource, hfolder⟩)
  obtain ⟨source₁, hsource₁, hfolder₁⟩ := Disk.isFolder_iff.mp hroot
  -- The run keeps the folders, so the path leads at its end where it led at its start.
  have hkeeps := processAll_keeps hall
  rw [hdisk] at hkeeps
  obtain rfl : source₁ = source := Except.ok.inj ((hkeeps.locate hsource₁).symm.trans hsource)
  have hlinks₁ := hmaking.toKeeps.unlinked hlinks
  obtain ⟨rels, rfl, hsorted, hrels⟩ :=
    Disk.exists_of_findFiles hsound₁ hfound hdown hsource₁ hfolder₁ hlinks₁
  obtain ⟨steps, rfl, hrun⟩ := run_of_processAll hall
  have hmatched : ∀ rel, Matched w₁.disk source₁ recursive patterns rel ↔
      Matched w.disk source₁ recursive patterns rel := fun rel => matched_iff_of_touches hmaking
  have hlayout : Layout w'.disk (Path.ofText folder) (outputFolder folder output) source₁ target
      w₁.logPaths rels := by
    rw [hpaths]
    exact layout_of_matched hsound₁ hkeeps hsource₁ hfolder₁ hlinks₁ htarget
      (hapart.of_keeps (hmaking.toKeeps.trans hkeeps)) hlogs (hsorted.imp ne_of_lt)
      (fun rel hrel => (hrels rel).mp hrel) fun rel rel' hrel hrel' =>
        hclash rel rel' ((hmatched rel).mp hrel) ((hmatched rel').mp hrel')
  have htouches := hrun.touches hbackup
  have hkept := hrun.kept hbackup (hdisk.symm ▸ hlayout)
  rw [hdisk] at htouches hkept
  obtain ⟨places, hplaces, hsub⟩ := exists_places_of_kept hkept
  refine ⟨rels, steps, w₁, w₂, hstart.symm, hstate, hrun, hdisk, rfl, hsorted,
    fun rel => (hrels rel).trans (hmatched rel), hkept, ⟨places, hplaces, hlayout.distinct.sublist hsub⟩,
    fun parts => ?_, fun patterns' hsame => ?_⟩
  · have hmade : ∀ place, w.disk.Grown w₁.disk place := fun place =>
      hmaking.grown fun _ hpath => absurd hpath List.not_mem_nil
    refine ⟨(hmade _).trans (hlayout.source_grown htouches parts), ?_⟩
    have hhome := htouches.grown fun path hpath => hlayout.locate_ne_home hpath parts
    rw [(hmaking.toKeeps.trans hkeeps).home] at hhome
    exact (hmaking.toKeeps.trans hkeeps).bytesAt? ((hmade _).trans hhome)
  · rw [processFolder_withPatterns, h]
    intro w₃ hmade'
    have hsearched : w₃.disk = w₁.disk := (Prod.mk.inj (hmade'.symm.trans hmade)).1
    have hitems' : (b.withPatterns patterns').options.patterns.items = .ok patterns' := rfl
    rw [findFiles_apply hitems, findFiles_apply hitems', hsearched, hfound,
      Disk.findFiles_congr hsound₁ hfound hdown hsource₁ hfolder₁ hlinks₁ hsame]

theorem processFolder_of_found {patterns : List Value} {files : List Path} {d : Disk}
    (hmade : w.disk.ensureFolders (outputFolder folder output) = (d, none))
    (hitems : b.options.patterns.items = .ok patterns)
    (hfound : d.findFiles folder recursive patterns = .ok files) :
    b.processFolder folder output recursive language w =
      (b.processAll (Path.ofText folder) (outputFolder folder output) language files >>= fun results => do
        Work.tell ("\nProcessing complete: " ++ toString (results.filter (·.success)).length ++ "/" ++
          toString results.length ++ " files successful")
        return results)
        { w with
          disk := d
          said := w.said ++ [.out ("Found " ++ toString files.length ++ " files to process" ++ "\n")] } := by
  have hmake : (Work.makeFolders (outputFolder folder output) : Work σ Unit) w =
      (.ok (), { w with disk := d }) := by
    rw [Work.makeFolders, hmade]
  rw [processFolder, ← outputFolder, Work.bind_of_ok hmake, Work.bind_apply, findFiles_apply hitems]
  simp only [hfound]
  rfl

theorem exists_of_isOk {α : Type} {x : Except Error α × World σ} (h : x.1.isOk = true) :
    ∃ a w', x = (.ok a, w') := by
  obtain ⟨result, w'⟩ := x
  cases result with
  | error e => cases h
  | ok a => exact ⟨a, w', rfl⟩

def folderSample (patterns : List String) : Batch Nat :=
  { sample with options := { patterns := .list (patterns.map .text), endingHints := .map [] } }

def folderWorld : World Nat where
  disk := { entries := [(["in"], .folder), (["in", "b"], .folder),
    (["in", "a.js"], .file (Text.encode "a=b.#a")), (["in", "b", "a.js"], .file (Text.encode "a=b.#a")),
    (["in", "c.txt"], .file [])] }
  state := 0

def madeDisk : Disk := { folderWorld.disk with entries := folderWorld.disk.entries ++ [(["out"], .folder)] }

theorem sound_folderWorld : folderWorld.disk.Sound := by decide +kernel

def folderParts : List (List String) := [[], ["b"], ["a.js"], ["b", "a.js"], ["c.txt"]]

theorem mem_of_matched_folderWorld {patterns : List Value} {rel : List String}
    (h : Matched folderWorld.disk ["in"] recursive patterns rel) : rel ∈ folderParts := by
  obtain ⟨-, bytes, hbytes⟩ := h
  obtain ⟨c, hget⟩ := Disk.Sound.exists_of_bytesAt? hbytes
  have hmem := (sound_folderWorld.get?_eq_some_iff (List.cons_ne_nil "in" rel)).mp hget
  simp only [folderWorld, List.mem_cons, Prod.mk.injEq, List.cons.injEq, true_and,
    List.not_mem_nil, or_false] at hmem
  rcases hmem with ⟨rfl, -⟩ | ⟨rfl, -⟩ | ⟨rfl, -⟩ | ⟨rfl, -⟩ | ⟨rfl, -⟩ <;> simp [folderParts]

/-- A pattern stands twice, and two of them ask for the same file. -/
theorem processFolder_keeps_sample :
    ∃ results w', (folderSample ["*.js", "b/*", "*.js"]).processFolder "in" (some "out") true .null
        folderWorld = (.ok results, w') ∧
      ∃ (rels : List (List String)) (steps : List (Step Nat)) (start stop : World Nat),
        start.disk = (folderWorld.disk.ensureFolders "out").1 ∧ start.state = folderWorld.state ∧
        Run (folderSample ["*.js", "b/*", "*.js"]) (Path.ofText "in") "out" .null start rels steps stop ∧
        stop.disk = w'.disk ∧ results = steps.map (·.result) ∧ rels.Pairwise (· < ·) ∧
        (∀ rel, rel ∈ rels ↔ Matched folderWorld.disk ["in"] true
          [.text "*.js", .text "b/*", .text "*.js"] rel) ∧
        List.Forall₂ (Kept (folderSample ["*.js", "b/*", "*.js"]) (Path.ofText "in") "out" ["out"]
          w'.disk) rels steps ∧
        (∃ places, List.Forall₂ (fun path place => w'.disk.locate path = .ok place)
          (results.flatMap paths) places ∧ places.Nodup) ∧
        (∀ parts, folderWorld.disk.Grown w'.disk (["in"] ++ parts) ∧
          w'.disk.bytesAt? (["in"] ++ parts) = folderWorld.disk.bytesAt? (["in"] ++ parts)) ∧
        ∀ patterns', (∀ pattern, pattern ∈ patterns' ↔
            pattern ∈ [Value.text "*.js", .text "b/*", .text "*.js"]) →
          ((folderSample ["*.js", "b/*", "*.js"]).withPatterns patterns').processFolder "in"
            (some "out") true .null folderWorld = (.ok results, w') := by
  have hfound : madeDisk.findFiles "in" true [.text "*.js", .text "b/*", .text "*.js"] =
      .ok [⟨"", ["in", "a.js"]⟩, ⟨"", ["in", "b", "a.js"]⟩] :=
    Disk.findFiles_of_sorted (by decide +kernel) (by decide +kernel)
  have hfacts : ∀ x, x = (folderSample ["*.js", "b/*", "*.js"]).processFolder "in" (some "out") true
      .null folderWorld → x.1.isOk = true ∧ x.2.disk.locate (Path.ofText "in").text = .ok ["in"] ∧
        x.2.disk.get? ["in"] = some .folder ∧
        x.2.disk.locate (outputFolder "in" (some "out")) = .ok ["out"] := by
    rintro x rfl
    rw [processFolder_of_found (d := madeDisk) (by decide +kernel) rfl hfound]
    decide +kernel
  obtain ⟨hok, hsource, hfolder, htarget⟩ := hfacts _ rfl
  obtain ⟨results, w', h⟩ := exists_of_isOk hok
  rw [h] at hsource hfolder htarget
  have hpointers : ∀ e ∈ folderWorld.disk.entries, e.2.leadsOn = false := by decide
  have hapart : Apart folderWorld.disk ["in"] ["out"] := by
    refine ⟨by decide, by decide, fun parts first hsecond => ?_, fun parts => ?_⟩
    · exact absurd hsecond (Disk.get?_ne_of_leadsOn hpointers rfl)
    · rw [Disk.pointer?, Option.filter_eq_none_iff]
      exact fun c hget hleads => Disk.get?_ne_of_leadsOn hpointers hleads hget
  have hlogs : LogsOutside w'.disk ["in"] ["out"] folderWorld.logPaths := fun log hlog => by cases hlog
  refine ⟨results, w', h, processFolder_keeps h sound_folderWorld rfl rfl ?_ hsource hfolder
    (fun _ _ => Disk.get?_ne_of_leadsOn hpointers rfl) htarget hapart hlogs ?_⟩
  · have hdown : ∀ pattern ∈ ["*.js", "b/*", "*.js"], ".." ∉ (Path.ofText pattern).parts := by
      decide +kernel
    exact fun pattern hpattern => hdown pattern (by simpa using hpattern)
  · have hclash : ∀ rel ∈ folderParts, ∀ rel' ∈ folderParts,
        (Files.Path.mk "" rel').text ≠ (Files.Path.mk "" rel).text ++ ".mapping.json" := by
      decide +kernel
    exact fun rel rel' hrel hrel' =>
      hclash rel (mem_of_matched_folderWorld hrel) rel' (mem_of_matched_folderWorld hrel')

/-- A pattern that leads up again leads to a file twice, and then to its own place. -/
theorem processFolder_overwrites :
    (((folderSample ["../in/*.js", "*.js"]).processFolder "in" (some "out") false .null
        folderWorld).1.map fun results => results.map (·.inputPath)).toOption =
          some ["in/../in/a.js", "in/a.js"] ∧
      folderWorld.disk.get? ["in", "a.js"] = some (.file (Text.encode "a=b.#a")) ∧
      ((folderSample ["../in/*.js", "*.js"]).processFolder "in" (some "out") false .null
        folderWorld).2.disk.get? ["in", "a.js"] = some (.file (Text.encode "sub_1=sub_2.#sub_1")) := by
  have hfound : madeDisk.findFiles "in" false [.text "../in/*.js", .text "*.js"] =
      .ok [⟨"", ["in", "..", "in", "a.js"]⟩, ⟨"", ["in", "a.js"]⟩] :=
    Disk.findFiles_of_sorted (by decide +kernel) (by decide +kernel)
  rw [processFolder_of_found (d := madeDisk) (by decide +kernel) rfl hfound]
  decide +kernel

end Folder

end Batch

end Pseudonym
