import Pseudonym.CommandLine.Run
import Pseudonym.Names.Lottery
import Pseudonym.Proofs.Batch.Footprint
import Pseudonym.Proofs.Batch.Speech

namespace Pseudonym.CommandLine

open Batch (Logger Work World Utterance)
open Files (Disk Place)
open Report (FileResult)
open Traversal

variable {σ : Type}

/-- What the arguments name can be used as they say. -/
@[mk_iff]
inductive Arguments.Usable (a : Arguments) (d : Disk) : Prop
  | piped (hinput : a.input = "-") (hmode : a.folder = false)
  | folder (hinput : a.input ≠ "-") (hmode : a.folder = true) (hthere : d.isFolder a.input = true)
  | file (hinput : a.input ≠ "-") (hmode : a.folder = false) (hthere : d.isFile a.input = true)

/-- The path of the log file that settings ask for, and the disk once it is there. -/
def openedFile (logging : Logging) (d : Disk) : Option Value → Except Error (Option String × Disk)
  | some file => do
      let path ← logging.path d.here file
      let disk ← (d.append path []).mapError .file
      pure (some path, disk)
  | none => .ok (none, d)

/-- The log that settings ask for, and the disk once it is open. -/
def opened (logging : Logging) (settings : Value) (d : Disk) : Except Error (Logger × Disk) := do
  let s ← LogSettings.ofSettings settings
  let (file, disk) ← openedFile logging d s.file
  let line ← logging.lines s.level s.format
  pure ({ line, file }, disk)

/-- What the work of a run starts with. -/
structure Setup (σ : Type) where
  batch : Batch σ
  start : σ
  logger : Logger
  disk : Disk

def setup (i : Invocation σ) (a : Arguments) (d : Disk) : Except Error (Setup σ) := do
  let settings ← (Settings.load i.reader d (i.sources a)).1
  let (logger, disk) ← opened i.logging settings d
  let (batch, start) ← i.batch settings
  pure { batch, start, logger, disk }

theorem openedFile_alters {logging : Logging} {d d' : Disk} {value : Option Value}
    {file : Option String} (h : openedFile logging d value = .ok (file, d')) :
    d.Alters file.toList d' := by
  cases value with
  | none =>
      obtain ⟨rfl, rfl⟩ := Prod.mk.inj (Except.ok.inj h)
      exact .refl _ _
  | some value =>
      obtain ⟨path, -, h⟩ := bind_eq_ok_iff.mp h
      obtain ⟨disk, hdisk, h⟩ := bind_eq_ok_iff.mp h
      obtain ⟨rfl, rfl⟩ := Prod.mk.inj (Except.ok.inj h)
      exact Disk.append_alters (mapError_eq_ok_iff.mp hdisk)

theorem opened_alters {logging : Logging} {settings : Value} {d d' : Disk} {logger : Logger}
    (h : opened logging settings d = .ok (logger, d')) : d.Alters logger.file.toList d' := by
  obtain ⟨s, -, h⟩ := bind_eq_ok_iff.mp h
  obtain ⟨⟨file, disk⟩, hfile, h⟩ := bind_eq_ok_iff.mp h
  obtain ⟨line, -, h⟩ := bind_eq_ok_iff.mp h
  obtain ⟨rfl, rfl⟩ := Prod.mk.inj (Except.ok.inj h)
  exact openedFile_alters hfile

theorem setup_eq_ok_iff {i : Invocation σ} {a : Arguments} {d : Disk} {s : Setup σ} :
    setup i a d = .ok s ↔ ∃ settings, (Settings.load i.reader d (i.sources a)).1 = .ok settings ∧
      opened i.logging settings d = .ok (s.logger, s.disk) ∧
      i.batch settings = .ok (s.batch, s.start) := by
  simp only [setup, bind_eq_ok_iff]
  constructor
  · rintro ⟨settings, hload, ⟨logger, disk⟩, hopened, ⟨batch, start⟩, hbatch, hs⟩
    obtain rfl := Except.ok.inj hs
    exact ⟨settings, hload, hopened, hbatch⟩
  · rintro ⟨settings, hload, hopened, hbatch⟩
    exact ⟨settings, hload, _, hopened, _, hbatch, rfl⟩

section Saying

theorem outText_append (xs ys : List Utterance) :
    outText (xs ++ ys) = outText xs ++ outText ys := by
  simp [outText, List.filterMap_append, String.join_append]

theorem outText_notes (notes : Log) : outText (notes.map .note) = "" := by
  induction notes with
  | nil => rfl
  | cons n notes ih => exact ih

theorem outText_errs (lines : List String) : outText (lines.map .err) = "" := by
  induction lines with
  | nil => rfl
  | cons line lines ih => exact ih

theorem warn_apply (line : String) (w : World σ) :
    Work.warn line w = (.ok (), { w with said := w.said ++ [.err (line ++ "\n")] }) := rfl

theorem log_apply (notes : Log) (w : World σ) : Work.log notes w = (.ok (), w.noted notes) := rfl

theorem forIn_warn (notes : Log) (w : World σ) :
    (forIn notes PUnit.unit fun n _ => do
        Work.warn n.text
        pure (ForInStep.yield PUnit.unit) : Work σ PUnit) w =
      (.ok ⟨⟩, { w with said := w.said ++ (notes.map fun n => n.text ++ "\n").map .err }) := by
  induction notes generalizing w with
  | nil =>
      rw [List.map_nil, List.map_nil, List.append_nil]
      rfl
  | cons n notes ih =>
      rw [List.forIn_cons, Work.bind_apply, Work.bind_apply, warn_apply]
      have hrest := ih { w with said := w.said ++ [.err (n.text ++ "\n")] }
      rw [List.append_assoc] at hrest
      exact hrest

end Saying

section Steps

theorem isThere_of_isFolder {d : Disk} {path : String} (h : d.isFolder path = true) :
    d.isThere path = true := by
  rw [Disk.isFolder, beq_iff_eq] at h
  rw [Disk.isThere, h]
  rfl

theorem isThere_of_isFile {d : Disk} {path : String} (h : d.isFile path = true) :
    d.isThere path = true := by
  rw [Disk.isFile] at h
  rw [Disk.isThere]
  cases hfind : d.find? path with
  | none =>
      rw [hfind] at h
      cases h
  | some c => rfl

def ignoredLine : String := "Warning: --recursive ignored (only applies to --dir mode)\n"

theorem refuse_apply (line : String) (w : World σ) :
    refuse line w = (.ok false, { w with said := w.said ++ [.err (line ++ "\n")] }) := rfl

theorem checkInput_cases (a : Arguments) (w : World σ) :
    ∃ ok said, checkInput a w = (.ok ok, { w with said := w.said ++ said }) ∧
      (ok = true ↔ a.Usable w.disk) ∧ (outText said = "" ∨ outText said = ignoredLine) := by
  rw [Arguments.usable_iff, checkInput]
  by_cases hinput : a.input = "-"
  · rw [if_pos hinput]
    cases hfolder : a.folder with
    | true => exact ⟨false, _, refuse_apply _ w, by simp [hinput], .inl rfl⟩
    | false =>
        refine ⟨true, [], ?_, by simp [hinput], .inl rfl⟩
        rw [List.append_nil]
        rfl
  · have hdisk : Work.disk w = (.ok w.disk, w) := rfl
    rw [if_neg hinput, Work.bind_apply, hdisk]
    dsimp only
    cases hthere : w.disk.isThere a.input with
    | false =>
        refine ⟨false, _, refuse_apply _ w, ?_, .inl rfl⟩
        have hfolder : ¬ w.disk.isFolder a.input = true := fun h => by
          simp [isThere_of_isFolder h] at hthere
        have hfile : ¬ w.disk.isFile a.input = true := fun h => by
          simp [isThere_of_isFile h] at hthere
        simp [hinput, hfolder, hfile]
    | true =>
        cases hmode : a.folder with
        | true =>
            cases hfolder : w.disk.isFolder a.input with
            | false => exact ⟨false, _, refuse_apply _ w, by simp [hinput], .inl rfl⟩
            | true =>
                refine ⟨true, [], ?_, by simp [hinput], .inl rfl⟩
                rw [List.append_nil]
                cases a.recursive <;> rfl
        | false =>
            cases hfile : w.disk.isFile a.input with
            | false => exact ⟨false, _, refuse_apply _ w, by simp [hinput], .inl rfl⟩
            | true =>
                cases a.recursive with
                | true => exact ⟨true, [.out ignoredLine], rfl, by simp [hinput], .inr rfl⟩
                | false =>
                    refine ⟨true, [], ?_, by simp [hinput], .inl rfl⟩
                    rw [List.append_nil]
                    rfl

theorem loadSettings_apply (i : Invocation σ) (a : Arguments) (w : World Unit) :
    ∃ said, outText said = "" ∧ loadSettings i a w =
      ((Settings.load i.reader w.disk (i.sources a)).1, { w with said := w.said ++ said }) := by
  let loaded := Settings.load i.reader w.disk (i.sources a)
  refine ⟨((loaded.2.atLeast .warning).map fun n => n.text ++ "\n").map .err, outText_errs _, ?_⟩
  change ((forIn (loaded.2.atLeast .warning) PUnit.unit fun n _ => do
    Work.warn n.text
    pure (ForInStep.yield PUnit.unit) : Work Unit PUnit) >>= fun _ => Work.ofResult loaded.1) w = _
  rw [Work.bind_apply, forIn_warn]
  exact Work.ofResult_apply _ _

def openFile (logging : Logging) : Option Value → Work Unit (Option String)
  | some file => do
      let path ← Work.ofResult (logging.path (← Work.disk).here file)
      Work.change (·.append path [])
      pure (some path)
  | none => pure none

def setLines (logging : Logging) (s : LogSettings) (file : Option String) : Work Unit Unit := do
  let line ← Work.ofResult (logging.lines s.level s.format)
  modify fun w => { w with logger := some { line, file } }

theorem openLog_eq (logging : Logging) (settings : Value) :
    openLog logging settings = (do
      let s ← Work.ofResult (LogSettings.ofSettings settings)
      let file ← openFile logging s.file
      setLines logging s file) := by
  rw [openLog]
  congr 1
  funext s
  cases s.file with
  | none => rfl
  | some file =>
      rw [openFile]
      simp only [bind_assoc, pure_bind]
      rfl

theorem openFile_cases (logging : Logging) (value : Option Value) (w : World Unit) :
    (∃ e w', openFile logging value w = (.error e, w') ∧ openedFile logging w.disk value = .error e) ∨
      ∃ file d, openFile logging value w = (.ok file, { w with disk := d }) ∧
        openedFile logging w.disk value = .ok (file, d) := by
  cases value with
  | none => exact .inr ⟨none, w.disk, rfl, rfl⟩
  | some value =>
      rw [openFile, openedFile, Work.bind_apply]
      change (∃ e w', (Work.ofResult (logging.path w.disk.here value) >>= _) w = _ ∧ _) ∨
        ∃ file d, (Work.ofResult (logging.path w.disk.here value) >>= _) w = _ ∧ _
      rw [Work.bind_apply, Work.ofResult_apply]
      cases logging.path w.disk.here value with
      | error e => exact .inl ⟨e, w, rfl, rfl⟩
      | ok path =>
          dsimp only
          rw [Work.bind_apply, Work.change_apply]
          cases happend : w.disk.append path [] with
          | error f => exact .inl ⟨.file f, w, rfl, by simp [bind, Except.bind, happend, Except.mapError]⟩
          | ok d => exact .inr ⟨some path, d, rfl, by simp [bind, Except.bind, happend, Except.mapError]; rfl⟩

theorem openLog_cases (logging : Logging) (settings : Value) (w : World Unit) :
    (∃ e w', openLog logging settings w = (.error e, w') ∧ opened logging settings w.disk = .error e) ∨
      ∃ logger d, openLog logging settings w = (.ok (), { w with disk := d, logger := some logger }) ∧
        opened logging settings w.disk = .ok (logger, d) := by
  rw [openLog_eq, opened, Work.bind_apply, Work.ofResult_apply]
  cases LogSettings.ofSettings settings with
  | error e => exact .inl ⟨e, w, rfl, rfl⟩
  | ok s =>
      dsimp only
      rcases openFile_cases logging s.file w with ⟨e, w', hopen, hfile⟩ | ⟨file, d, hopen, hfile⟩
      · refine .inl ⟨e, w', ?_, ?_⟩
        · rw [Work.bind_apply, hopen]
        · simp only [bind, Except.bind, hfile]
      · rw [Work.bind_of_ok hopen, setLines, Work.bind_apply, Work.ofResult_apply]
        cases hlines : logging.lines s.level s.format with
        | error e => exact .inl ⟨e, _, rfl, by simp only [bind, Except.bind, hfile, hlines]⟩
        | ok line => exact .inr ⟨_, d, rfl, by simp only [bind, Except.bind, hfile, hlines]; rfl⟩

theorem prepare_cases (i : Invocation σ) (a : Arguments) (w : World Unit) :
    (∃ e w', prepare i a w = (.error e, w') ∧ setup i a w.disk = .error e) ∨
    ∃ settings logger d said,
      prepare i a w =
        (.ok settings, { w with disk := d, logger := some logger, said := w.said ++ said }) ∧
      outText said = "" ∧ (Settings.load i.reader w.disk (i.sources a)).1 = .ok settings ∧
      opened i.logging settings w.disk = .ok (logger, d) := by
  obtain ⟨said, hsaid, hload⟩ := loadSettings_apply i a w
  rw [prepare, Work.bind_apply, hload]
  cases hsettings : (Settings.load i.reader w.disk (i.sources a)).1 with
  | error e =>
      refine .inl ⟨e, _, rfl, ?_⟩
      simp only [setup, hsettings, bind, Except.bind]
  | ok settings =>
      dsimp only
      rcases openLog_cases i.logging settings { w with said := w.said ++ said } with
        ⟨e, w', hopen, hopened⟩ | ⟨logger, d, hopen, hopened⟩
      · refine .inl ⟨e, w', ?_, ?_⟩
        · rw [Work.bind_apply, hopen]
        · simp only [setup, hsettings, hopened, bind, Except.bind]
      · exact .inr ⟨settings, logger, d, said, Work.bind_of_ok hopen, hsaid, rfl, hopened⟩

end Steps

namespace Setup

variable (s : Setup σ) (i : Invocation σ) (a : Arguments)

def world : World σ := { disk := s.disk, state := s.start, logger := some s.logger }

/-- The hint on the command line, if there is one, stands for a profile. -/
def KnowsHint : Prop :=
  ∀ language, a.language = some language → ¬ s.batch.redactor.resolver.Unknown (.text language)

/-- The world once the hint on the command line is looked up. What is noted then is in the log. -/
def ready : World σ :=
  match a.language with
  | some language => s.world.noted (s.batch.redactor.resolver.resolve (.text language)).2
  | none => s.world

def answer (text : String) : Except Error Redaction :=
  (s.batch.redactor.redact s.batch.parser
    { text := .text text, hint := hintOf a, includeMapping := some true } s.start).result

/-- What is piped in is redacted, or every file that was found. -/
inductive Succeeds : Prop
  | piped {bs : Text.Bytes} {text : String} {redaction : Redaction} (hinput : a.input = "-")
      (hpiped : i.piped = .bytes bs) (htext : pipedText bs = .ok text)
      (hdone : s.answer a text = .ok redaction)
  | folder {results : List FileResult} {w : World σ} (hinput : a.input ≠ "-")
      (hmode : a.folder = true)
      (hrun : s.batch.processFolder a.input a.output a.recursive (hintOf a) (s.ready a) =
        (.ok results, w))
      (hall : ∀ r ∈ results, r.success = true)
  | file {r : FileResult} {w : World σ} (hinput : a.input ≠ "-") (hmode : a.folder = false)
      (hrun : s.batch.processFile a.input a.output (hintOf a) (s.ready a) = (.ok r, w))
      (hsuccess : r.success = true)

/-- What is piped in cannot be asked for. -/
def TurnsDown : Prop :=
  a.input = "-" ∧ ∃ bs text e, i.piped = .bytes bs ∧ pipedText bs = .ok text ∧
    s.answer a text = .error (.request e) ∧ e.isBadRequest = true

variable {s i a}

theorem Succeeds.not_turnsDown (h : s.Succeeds i a) : ¬ s.TurnsDown i a := by
  rintro ⟨hdash, bs, text, e, hbytes, hread, hfailed, -⟩
  cases h with
  | piped hinput hpiped htext hdone =>
      obtain rfl := Piped.bytes.inj (hpiped.symm.trans hbytes)
      obtain rfl := Except.ok.inj (htext.symm.trans hread)
      cases hdone.symm.trans hfailed
  | folder hinput => exact hinput hdash
  | file hinput => exact hinput hdash

/-- Looking up the hint says nothing to the reader and changes nothing but the log. -/
theorem ready_facts (s : Setup σ) (a : Arguments) :
    (s.ready a).state = s.start ∧ (s.ready a).logPaths = s.logger.file.toList ∧
      outText (s.ready a).said = "" ∧ s.disk.Alters s.logger.file.toList (s.ready a).disk := by
  rw [ready]
  cases a.language with
  | none => exact ⟨rfl, rfl, rfl, .refl _ _⟩
  | some language =>
      dsimp only
      generalize (s.batch.redactor.resolver.resolve (.text language)).2 = notes
      exact ⟨rfl, rfl, outText_notes notes, s.world.noted_alters notes⟩

variable (s i a)

/-- How a run goes on once it is set up. -/
inductive Ends (said : List Utterance) : Except Error Exit × World σ → Prop
  | badRequest {w : World σ} (hbad : ¬ s.KnowsHint a ∨ s.TurnsDown i a)
      (hdisk : s.disk.Alters s.logger.file.toList w.disk) (hout : outText w.said = outText said) :
      Ends said (.ok .badRequest, w)
  | success {w : World σ} (hknown : s.KnowsHint a) (hdone : s.Succeeds i a) :
      Ends said (.ok .success, w)
  | failure {w : World σ} (hknown : s.KnowsHint a) (hfailed : ¬ s.Succeeds i a)
      (hfit : ¬ s.TurnsDown i a) : Ends said (.ok .failure, w)
  | raised {e : Error} {w : World σ} (hknown : s.KnowsHint a) (hfailed : ¬ s.Succeeds i a)
      (hfit : ¬ s.TurnsDown i a) : Ends said (.error e, w)

variable {s i a} {said : List Utterance}

section Modes

theorem succeeds_iff_of_piped {bs : Text.Bytes} (hinput : a.input = "-")
    (hpiped : i.piped = .bytes bs) :
    s.Succeeds i a ↔
      ∃ text redaction, pipedText bs = .ok text ∧ s.answer a text = .ok redaction := by
  constructor
  · intro h
    cases h with
    | piped _ hbytes htext hdone =>
        obtain rfl := Piped.bytes.inj (hpiped.symm.trans hbytes)
        exact ⟨_, _, htext, hdone⟩
    | folder hnot => exact absurd hinput hnot
    | file hnot => exact absurd hinput hnot
  · rintro ⟨text, redaction, htext, hdone⟩
    exact .piped hinput hpiped htext hdone

theorem turnsDown_iff_of_piped {bs : Text.Bytes} (hinput : a.input = "-")
    (hpiped : i.piped = .bytes bs) :
    s.TurnsDown i a ↔ ∃ text e, pipedText bs = .ok text ∧ s.answer a text = .error (.request e) ∧
      e.isBadRequest = true := by
  constructor
  · rintro ⟨-, bs', text, e, hbytes, hend⟩
    obtain rfl := Piped.bytes.inj (hpiped.symm.trans hbytes)
    exact ⟨text, e, hend⟩
  · rintro ⟨text, e, hend⟩
    exact ⟨hinput, bs, text, e, hpiped, hend⟩

theorem succeeds_iff_of_folder (hinput : a.input ≠ "-") (hmode : a.folder = true) :
    s.Succeeds i a ↔ ∃ results w,
      s.batch.processFolder a.input a.output a.recursive (hintOf a) (s.ready a) = (.ok results, w) ∧
        ∀ r ∈ results, r.success = true := by
  constructor
  · intro h
    cases h with
    | piped hdash => exact absurd hdash hinput
    | folder _ _ hrun hall => exact ⟨_, _, hrun, hall⟩
    | file _ hnot => cases hmode.symm.trans hnot
  · rintro ⟨results, w, hrun, hall⟩
    exact .folder hinput hmode hrun hall

theorem succeeds_iff_of_file (hinput : a.input ≠ "-") (hmode : a.folder = false) :
    s.Succeeds i a ↔ ∃ r w, s.batch.processFile a.input a.output (hintOf a) (s.ready a) = (.ok r, w) ∧
      r.success = true := by
  constructor
  · intro h
    cases h with
    | piped hdash => exact absurd hdash hinput
    | folder _ hnot => cases hmode.symm.trans hnot
    | file _ _ hrun hsuccess => exact ⟨_, _, hrun, hsuccess⟩
  · rintro ⟨r, w, hrun, hsuccess⟩
    exact .file hinput hmode hrun hsuccess

end Modes

theorem ends_redactPiped {bs : Text.Bytes} (hknown : s.KnowsHint a) (hinput : a.input = "-")
    (hpiped : i.piped = .bytes bs) :
    s.Ends i a said (redactPiped s.batch a bs (World.after said (s.ready a))) := by
  have hdone := succeeds_iff_of_piped (s := s) hinput hpiped
  have hdown := turnsDown_iff_of_piped (s := s) hinput hpiped
  obtain ⟨hstate, hpaths, hquiet, halters⟩ := s.ready_facts a
  rw [redactPiped, Work.bind_apply, Work.ofResult_apply]
  cases htext : pipedText bs with
  | error e =>
      simp only [htext, reduceCtorEq, false_and, exists_const] at hdone hdown
      exact .raised hknown hdone.mp hdown.mp
  | ok text =>
      simp only [htext, Except.ok.injEq, exists_and_left, exists_eq_left'] at hdone hdown
      rw [answer, ← hstate] at hdone hdown
      dsimp only
      rw [Work.bind_apply, Work.outcome, Batch.redactText]
      dsimp only
      have hafter : (World.after said (s.ready a)).state = (s.ready a).state := rfl
      rw [hafter]
      -- From here on only the reply matters, not how it came about.
      generalize s.batch.redactor.redact s.batch.parser
        { text := .text text, hint := hintOf a, includeMapping := some true } (s.ready a).state = reply
        at hdone hdown ⊢
      obtain ⟨result, state, notes⟩ := reply
      cases result with
      | ok redaction =>
          have hsuccess := hdone.mpr ⟨redaction, rfl⟩
          dsimp only
          split
          · exact .success hknown hsuccess
          · split
            · exact .success hknown hsuccess
            · exact .success hknown hsuccess
      | error e =>
          have hfailed : ¬ s.Succeeds i a := fun h => by
            obtain ⟨_, hok⟩ := hdone.mp h
            cases hok
          cases e with
          | request e =>
              dsimp only
              rw [Work.bind_apply, warn_apply]
              cases hbad : e.isBadRequest with
              | true =>
                  refine .badRequest (.inr (hdown.mpr ⟨e, rfl, hbad⟩)) ?_ ?_
                  · have hnoted := ((World.after said (s.ready a)).withState state).noted_alters notes
                    exact halters.trans (hpaths ▸ hnoted)
                  · change outText (said ++ (s.ready a).said ++ notes.map .note ++ [_]) = _
                    rw [outText_append, outText_append, outText_append, outText_notes, hquiet]
                    simp only [String.append_empty]
                    exact String.append_empty
              | false =>
                  refine .failure hknown hfailed fun h => ?_
                  obtain ⟨_, he, hbad'⟩ := hdown.mp h
                  obtain rfl := Error.request.inj (Except.error.inj he)
                  cases hbad.symm.trans hbad'
          | _ =>
              refine .raised hknown hfailed fun h => ?_
              obtain ⟨_, hbad, -⟩ := hdown.mp h
              cases hbad

theorem forM_tell (lines : List String) (w : World σ) :
    ∃ w', lines.forM (Work.tell : String → Work σ Unit) w = (.ok ⟨⟩, w') := by
  induction lines generalizing w with
  | nil => exact ⟨w, rfl⟩
  | cons line lines ih =>
      change ∃ w', (Work.tell line >>= fun _ => lines.forM Work.tell : Work σ PUnit) w = _
      rw [Work.bind_apply]
      exact ih _

/-- A hint that a file was redacted with can be told. -/
theorem display_of_redaction {b : Batch σ} {d : Disk} {state : σ} {input : String} {hint : Value}
    {redaction : Redaction} (h : b.redaction d state input hint = .ok redaction) :
    hint.display ≠ none := by
  obtain ⟨text, -, hredact⟩ := bind_eq_ok_iff.mp h
  rcases b.redactor.redact_cases b.parser ⟨.text text, hint, some true⟩ state with
    ⟨-, hresult, -⟩ | ⟨-, -, hresult, -⟩ | ⟨-, -, -, ⟨_, hresult⟩, -⟩ | ⟨_, _, -, -, hsome, -⟩
  · cases hresult.symm.trans hredact
  · cases hresult.symm.trans hredact
  · cases hresult.symm.trans hredact
  · exact hsome

theorem exists_tellResult {r : FileResult} (h : r.language.display ≠ none) (w : World σ) :
    ∃ w', tellResult r w = (.ok (), w') := by
  obtain ⟨w₁, hopening⟩ := forM_tell (Report.openingLines r) w
  obtain ⟨language, hlanguage⟩ : ∃ language,
      (if r.language.truthy then r.language.asText else .ok "default") = .ok language := by
    obtain ⟨text, htext⟩ := Option.ne_none_iff_exists'.mp h
    rw [Value.asText, htext]
    split <;> exact ⟨_, rfl⟩
  rw [tellResult, Work.bind_of_ok hopening, hlanguage]
  exact forM_tell (Report.resultLines r language) w₁

/-- Work that is told about and judged. What was said before makes no difference to it. -/
theorem ends_judged {α : Type} {work : Work σ α} {telling : α → Work σ Unit} {good : α → Bool}
    (hblind : work.Blind) (hknown : s.KnowsHint a) (hfit : ¬ s.TurnsDown i a)
    (hdone : s.Succeeds i a ↔ ∃ x w', work (s.ready a) = (.ok x, w') ∧ good x = true)
    (htold : ∀ x w₁ w, work (s.ready a) = (.ok x, w₁) → good x = true →
      ∃ w₂, telling x w = (.ok (), w₂)) :
    s.Ends i a said
      ((do
        let x ← work
        telling x
        return if good x then .success else .failure : Work σ Exit) (World.after said (s.ready a))) := by
  rw [Work.bind_apply, hblind said (s.ready a)]
  rcases hrun : work (s.ready a) with ⟨result, w₁⟩
  rw [hrun] at hdone htold
  cases result with
  | error e =>
      refine .raised hknown (fun h => ?_) hfit
      obtain ⟨_, _, hok, -⟩ := hdone.mp h
      cases hok
  | ok x =>
      dsimp only
      cases hgood : good x with
      | true =>
          obtain ⟨w₂, htelling⟩ := htold x w₁ (World.after said w₁) rfl hgood
          rw [Work.bind_of_ok htelling]
          exact .success hknown (hdone.mpr ⟨x, w₁, rfl, hgood⟩)
      | false =>
          have hfailed : ¬ s.Succeeds i a := fun h => by
            obtain ⟨_, _, hok, hgood'⟩ := hdone.mp h
            obtain rfl := Except.ok.inj (Prod.mk.inj hok).1
            cases hgood.symm.trans hgood'
          rw [Work.bind_apply]
          rcases telling x (World.after said w₁) with ⟨told, w₂⟩
          cases told with
          | error e => exact .raised hknown hfailed hfit
          | ok _ => exact .failure hknown hfailed hfit

theorem ends_runFiles (hknown : s.KnowsHint a) (hinput : a.input ≠ "-") :
    s.Ends i a said (runFiles s.batch a (World.after said (s.ready a))) := by
  have hfit : ¬ s.TurnsDown i a := fun h => hinput h.1
  rw [runFiles]
  cases hmode : a.folder with
  | true =>
      refine ends_judged (Batch.blind_processFolder _ _ _ _) hknown hfit ?_
        fun results _ w _ _ => forM_tell (Report.summaryLines results) w
      simp only [succeeds_iff_of_folder hinput hmode, List.all_eq_true]
  | false =>
      refine ends_judged (Batch.blind_processFile _ _ _) hknown hfit (succeeds_iff_of_file hinput hmode)
        fun r w₁ w hrun hsuccess => exists_tellResult ?_ w
      obtain ⟨-, out, -, houtcome⟩ := Batch.processFile_outcome hrun
      obtain ⟨redaction, hredaction, -⟩ := houtcome.delivers hsuccess
      exact display_of_redaction hredaction

/-- The hint is looked up once, before anything else is done. -/
theorem checkLanguage_cases (s : Setup σ) (a : Arguments) (said : List Utterance) :
    (s.KnowsHint a ∧ checkLanguage s.batch a (World.after said s.world) =
        (.ok true, World.after said (s.ready a))) ∨
      (¬ s.KnowsHint a ∧ ∃ line, checkLanguage s.batch a (World.after said s.world) =
        (.ok false, { World.after said (s.ready a) with said := said ++ (s.ready a).said ++ [.err line] })) := by
  rw [checkLanguage, KnowsHint, ready]
  cases a.language with
  | none => exact .inl ⟨by simp, rfl⟩
  | some language =>
      have hcases := s.batch.redactor.resolver.resolve_cases (.text language)
      dsimp only
      rcases hresolve : s.batch.redactor.resolver.resolve (.text language) with ⟨profile, notes⟩
      rw [hresolve] at hcases
      rw [Work.bind_apply, log_apply, World.noted_after]
      rcases hcases with ⟨hnone, -⟩ | ⟨-, hunknown, text, rfl⟩ | ⟨-, hknown, profile, rfl⟩
      · cases hnone
      · exact .inr ⟨by simpa using hunknown, _, rfl⟩
      · exact .inl ⟨by simpa using hknown, rfl⟩

theorem ends_runBatch (s : Setup σ) (i : Invocation σ) (a : Arguments) (said : List Utterance)
    (hpiped : i.piped ≠ .interrupted) :
    s.Ends i a said (runBatch i a s.batch (World.after said s.world)) := by
  obtain ⟨-, -, hquiet, halters⟩ := s.ready_facts a
  rw [runBatch, Work.bind_apply]
  rcases checkLanguage_cases s a said with ⟨hknown, hcheck⟩ | ⟨hunknown, line, hcheck⟩
  · rw [hcheck]
    dsimp only
    rw [if_neg (by simp)]
    by_cases hinput : a.input = "-"
    · rw [if_pos hinput, runPiped]
      cases hp : i.piped with
      | interrupted => exact absurd hp hpiped
      | bytes bs => exact ends_redactPiped hknown hinput hp
    · rw [if_neg hinput]
      exact ends_runFiles hknown hinput
  · rw [hcheck]
    refine .badRequest (.inl hunknown) halters ?_
    change outText (said ++ (s.ready a).said ++ [_]) = _
    rw [outText_append, outText_append, hquiet, String.append_empty]
    exact String.append_empty

end Setup

section Finishing

variable {work : Work σ Exit} {w w' : World σ}

theorem explain_of_ok {exit : Exit} (h : work w = (.ok exit, w')) :
    explain work w = (.ok exit, w') := by
  rw [explain, Work.bind_apply, Work.outcome, h]
  rfl

/-- A failure ends a run with a status, or it gets out. -/
def Fails (f : Finish) : Prop := f.exit = .ok Exit.failure.status ∨ ∃ e, f.exit = .error e

theorem fails_conclude {e : Error} (h : work w = (.error e, w')) : Fails (conclude work w) := by
  have hexplained : (explain work w).1 = .ok .failure ∨ (explain work w).1 = .error e := by
    rw [explain, Work.bind_apply, Work.outcome, h]
    dsimp only
    cases valueFault? e with
    | some text => exact .inl rfl
    | none => exact .inr rfl
  have hexit : (conclude work w).exit = (explain work w).1.map Exit.status := rfl
  rw [Fails, hexit]
  rcases hexplained with hfailure | herror
  · exact .inl (by rw [hfailure]; rfl)
  · exact .inr ⟨e, by rw [herror]; rfl⟩

end Finishing

/-- The course of a whole run, with what it leaves. -/
inductive Course (i : Invocation σ) (a : Arguments) (d : Disk) (f : Finish) : Prop
  | refused (hunusable : ¬ a.Usable d) (hexit : f.exit = .ok Exit.badRequest.status)
      (hdisk : f.disk = d) (hout : f.out = "" ∨ f.out = ignoredLine)
  | misconfigured {e : Error} (husable : a.Usable d) (hsetup : setup i a d = .error e)
      (hfails : Fails f)
  | raised {s : Setup σ} {said : List Utterance} {w : World σ} {e : Error} (husable : a.Usable d)
      (hsetup : setup i a d = .ok s) (hends : s.Ends i a said (.error e, w)) (hfails : Fails f)
  | ended {s : Setup σ} {said : List Utterance} {w : World σ} {exit : Exit} (husable : a.Usable d)
      (hsetup : setup i a d = .ok s) (hends : s.Ends i a said (.ok exit, w))
      (hstart : outText said = "" ∨ outText said = ignoredLine)
      (hexit : f.exit = .ok exit.status) (hout : f.out = outText w.said) (hdisk : f.disk = w.disk)

theorem course_of_setup {i : Invocation σ} {a : Arguments} {d : Disk} {s : Setup σ}
    {said : List Utterance} (hpiped : i.piped ≠ .interrupted) (husable : a.Usable d)
    (hsetup : setup i a d = .ok s) (hstart : outText said = "" ∨ outText said = ignoredLine) :
    Course i a d (conclude (runBatch i a s.batch) (World.after said s.world)) := by
  have hends := s.ends_runBatch i a said hpiped
  rcases hrun : runBatch i a s.batch (World.after said s.world) with ⟨result, w⟩
  rw [hrun] at hends
  cases result with
  | error e => exact .raised husable hsetup hends (fails_conclude hrun)
  | ok exit =>
      rw [conclude, explain_of_ok hrun]
      exact .ended husable hsetup hends hstart rfl rfl rfl

theorem runArguments_course (i : Invocation σ) (a : Arguments) (d : Disk)
    (hpiped : i.piped ≠ .interrupted) :
    Course i a d (runArguments i a { disk := d, state := () }) := by
  obtain ⟨ok, said, hcheck, husable, hstart⟩ :=
    checkInput_cases a ({ disk := d, state := () } : World Unit)
  rw [runArguments, hcheck]
  cases ok with
  | false => exact .refused (husable.not.mp Bool.false_ne_true) rfl rfl hstart
  | true =>
      have husable := husable.mp rfl
      dsimp only
      rcases prepare_cases i a { disk := d, state := (), said := [] ++ said } with
        ⟨e, w', hprepare, hsetup⟩ | ⟨settings, logger, d', quiet, hprepare, hquiet, hload, hopened⟩
      · rw [hprepare]
        exact .misconfigured husable hsetup (fails_conclude rfl)
      · rw [hprepare]
        dsimp only
        cases hbatch : i.batch settings with
        | error e =>
            have hsetup : setup i a d = .error e := by
              simp only [setup, hload, hopened, hbatch, bind, Except.bind]
            exact .misconfigured husable hsetup (fails_conclude rfl)
        | ok opened =>
            obtain ⟨batch, start⟩ := opened
            have hsetup : setup i a d = .ok { batch, start, logger, disk := d' } :=
              setup_eq_ok_iff.mpr ⟨settings, hload, hopened, hbatch⟩
            have hsaid : outText (said ++ quiet) = "" ∨ outText (said ++ quiet) = ignoredLine := by
              rwa [outText_append, hquiet, String.append_empty]
            have hcourse := course_of_setup hpiped husable hsetup hsaid
            rw [World.after, Setup.world, List.append_nil] at hcourse
            exact hcourse

/-- The input can be used, the settings and the hint are in order, and the work is done. -/
def GoesWell (i : Invocation σ) (a : Arguments) (d : Disk) : Prop :=
  a.Usable d ∧ ∃ s, setup i a d = .ok s ∧ s.KnowsHint a ∧ s.Succeeds i a

/-- The input cannot be used, or the settings are in order and the request is not. -/
def AsksBadly (i : Invocation σ) (a : Arguments) (d : Disk) : Prop :=
  ¬ a.Usable d ∨ ∃ s, setup i a d = .ok s ∧ (¬ s.KnowsHint a ∨ s.TurnsDown i a)

section Verdicts

variable {i : Invocation σ} {a : Arguments} {d : Disk} {s : Setup σ}

theorem goesWell_iff (husable : a.Usable d) (hsetup : setup i a d = .ok s) :
    GoesWell i a d ↔ s.KnowsHint a ∧ s.Succeeds i a := by
  constructor
  · rintro ⟨-, s', hsetup', hgood⟩
    obtain rfl := Except.ok.inj (hsetup.symm.trans hsetup')
    exact hgood
  · exact fun hgood => ⟨husable, s, hsetup, hgood⟩

theorem asksBadly_iff (husable : a.Usable d) (hsetup : setup i a d = .ok s) :
    AsksBadly i a d ↔ ¬ s.KnowsHint a ∨ s.TurnsDown i a := by
  constructor
  · rintro (hunusable | ⟨s', hsetup', hbad⟩)
    · exact absurd husable hunusable
    · obtain rfl := Except.ok.inj (hsetup.symm.trans hsetup')
      exact hbad
  · exact fun hbad => .inr ⟨s, hsetup, hbad⟩

end Verdicts

/-- The log file that a run opens once its settings are in order. -/
def logPaths (i : Invocation σ) (a : Arguments) (d : Disk) : List String :=
  match setup i a d with
  | .ok s => s.logger.file.toList
  | .error _ => []

/-- Nothing of the work is to be seen: no code, and no file but the log that the settings name, which
is not opened for an input that cannot be used. -/
structure LeavesNoTrace (i : Invocation σ) (a : Arguments) (d : Disk) (f : Finish) : Prop where
  out : f.out = "" ∨ f.out = ignoredLine
  alters : d.Alters (logPaths i a d) f.disk
  unopened : ¬ a.Usable d → f.disk = d

theorem Course.verdict {i : Invocation σ} {a : Arguments} {d : Disk} {f : Finish} {status : Nat}
    (h : Course i a d f) (hexit : f.exit = .ok status) :
    (status = 0 ∧ GoesWell i a d ∧ ¬ AsksBadly i a d) ∨
    (status = 1 ∧ ¬ GoesWell i a d ∧ ¬ AsksBadly i a d) ∨
    (status = 2 ∧ ¬ GoesWell i a d ∧ AsksBadly i a d ∧ LeavesNoTrace i a d f) := by
  cases h with
  | refused hunusable hexit' hdisk hout =>
      obtain rfl := Except.ok.inj (hexit.symm.trans hexit')
      refine .inr (.inr ⟨rfl, fun h => hunusable h.1, .inl hunusable, hout, ?_, fun _ => hdisk⟩)
      rw [hdisk]
      exact .refl _ _
  | misconfigured husable hsetup hfails =>
      rcases hfails with hone | ⟨e, herror⟩
      · obtain rfl := Except.ok.inj (hexit.symm.trans hone)
        refine .inr (.inl ⟨rfl, ?_, ?_⟩)
        · rintro ⟨-, s, hok, -⟩
          cases hsetup.symm.trans hok
        · rintro (hunusable | ⟨s, hok, -⟩)
          · exact hunusable husable
          · cases hsetup.symm.trans hok
      · cases hexit.symm.trans herror
  | raised husable hsetup hends hfails =>
      rcases hfails with hone | ⟨e, herror⟩
      · obtain rfl := Except.ok.inj (hexit.symm.trans hone)
        rw [goesWell_iff husable hsetup, asksBadly_iff husable hsetup]
        cases hends with
        | raised hknown hfailed hfit =>
            exact .inr (.inl ⟨rfl, fun h => hfailed h.2, not_or.mpr ⟨not_not_intro hknown, hfit⟩⟩)
      · cases hexit.symm.trans herror
  | ended husable hsetup hends hstart hexit' hout hdisk =>
      obtain rfl := Except.ok.inj (hexit.symm.trans hexit')
      rw [goesWell_iff husable hsetup, asksBadly_iff husable hsetup]
      cases hends with
      | badRequest hbad halters hquiet =>
          obtain ⟨settings, -, hopened, -⟩ := setup_eq_ok_iff.mp hsetup
          refine .inr (.inr ⟨rfl, fun h => hbad.elim (· h.1) h.2.not_turnsDown, hbad, ?_, ?_,
            fun hunusable => absurd husable hunusable⟩)
          · rwa [hout, hquiet]
          · rw [logPaths, hsetup, hdisk]
            exact (opened_alters hopened).trans halters
      | success hknown hdone =>
          exact .inl ⟨rfl, ⟨hknown, hdone⟩, not_or.mpr ⟨not_not_intro hknown, hdone.not_turnsDown⟩⟩
      | failure hknown hfailed hfit =>
          exact .inr (.inl ⟨rfl, fun h => hfailed h.2, not_or.mpr ⟨not_not_intro hknown, hfit⟩⟩)

/-- The exit status says how a run went, and a bad request leaves nothing behind but a log. -/
theorem run_status {i : Invocation σ} {disk : Disk} {a : Arguments} {status : Nat}
    (hparse : Arguments.parse i.arguments = .ok a) (hpiped : i.piped ≠ .interrupted)
    (hexit : (run i disk).exit = .ok status) :
    (status = 0 ↔ GoesWell i a disk) ∧ (status = 2 ↔ AsksBadly i a disk) ∧
      (status = 1 ↔ ¬ GoesWell i a disk ∧ ¬ AsksBadly i a disk) ∧
      (status = 2 → LeavesNoTrace i a disk (run i disk)) := by
  have hrun : run i disk = runArguments i a { disk, state := () } := by rw [run, hparse]
  rw [hrun] at hexit ⊢
  rcases (runArguments_course i a disk hpiped).verdict hexit with
    ⟨rfl, hwell, hfit⟩ | ⟨rfl, hnot, hfit⟩ | ⟨rfl, hnot, hbad, htrace⟩
  · simp [hwell, hfit]
  · simp [hnot, hfit]
  · simp [hnot, hbad, htrace]

/-- Settings that name the output of the run as its log file. -/
def loggedSettings : Document.Reader := fun source _ =>
  .ok (.ofValue [source] (.map [(.text "logging", .map [(.text "file", .text "o.js")])]))

def sampleRun (arguments : List String) : Invocation Nat where
  arguments
  parser := fun _ _ => .ok (Reading.assignment 1 1)
  reader := loggedSettings
  codecs := fun name => if name = "utf-8" then some .utf8 else none
  words := WordSource.byLot 0
  logging := { path := fun _ file => file.asText, lines := fun _ _ => .ok fun n => some n.text }

def sampleDisk : Disk :=
  { entries := [(["a.js"], .file (Text.encode "a=b.#a")), (["c.yaml"], .file [])] }

/-- A file with an output, and a file that is not there. -/
theorem run_status_sample :
    GoesWell (sampleRun ["a.js", "-o", "o.js"]) { input := "a.js", output := some "o.js" }
        sampleDisk ∧
      AsksBadly (sampleRun ["b.js"]) { input := "b.js" } sampleDisk ∧
      LeavesNoTrace (sampleRun ["b.js"]) { input := "b.js" } sampleDisk
        (run (sampleRun ["b.js"]) sampleDisk) := by
  have hpiped : ∀ arguments, (sampleRun arguments).piped ≠ .interrupted := fun _ => nofun
  have hfile : Arguments.parse (sampleRun ["a.js", "-o", "o.js"]).arguments =
      .ok { input := "a.js", output := some "o.js" } := by decide +kernel
  have hwell : (run (sampleRun ["a.js", "-o", "o.js"]) sampleDisk).exit = .ok 0 := by decide +kernel
  have hmissing : Arguments.parse (sampleRun ["b.js"]).arguments = .ok { input := "b.js" } := by
    decide +kernel
  have hbad : (run (sampleRun ["b.js"]) sampleDisk).exit = .ok 2 := by decide +kernel
  have hstatus := run_status hmissing (hpiped _) hbad
  exact ⟨(run_status hfile (hpiped _) hwell).1.mp rfl, hstatus.2.1.mp rfl, hstatus.2.2.2 rfl⟩

/-- A log file is there before the hint is looked up, also where the output was to be. -/
theorem run_status_logged :
    ((Arguments.parse ["a.js", "-o", "o.js", "-c", "c.yaml", "-l", "zz"]).map (·.output)).toOption =
        some (some "o.js") ∧
      (run (sampleRun ["a.js", "-o", "o.js", "-c", "c.yaml", "-l", "zz"]) sampleDisk).exit = .ok 2 ∧
      sampleDisk.locate "o.js" = .ok ["o.js"] ∧ sampleDisk.get? ["o.js"] = none ∧
      (run (sampleRun ["a.js", "-o", "o.js", "-c", "c.yaml", "-l", "zz"]) sampleDisk).disk.get?
        ["o.js"] = some (.file []) := by
  decide +kernel

end Pseudonym.CommandLine
