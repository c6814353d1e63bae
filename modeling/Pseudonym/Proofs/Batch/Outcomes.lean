import Pseudonym.Batch.Process
import Pseudonym.Proofs.Files.Locations

namespace Pseudonym

open Files (Disk Place Content IsName)
open Report (FileResult)
open Text (Bytes)

variable {σ : Type}

namespace Batch.World

/-- The path of the log file, if there is one. -/
def logPaths (w : World σ) : List String := (w.logger.bind (·.file)).toList

theorem noted_alters (w : World σ) (notes : Log) :
    w.disk.Alters w.logPaths (w.noted notes).disk := by
  rw [noted, logPaths]
  cases w.logger with
  | none => exact .refl _ _
  | some logger =>
      simp only [Logger.write, Option.bind_some]
      cases logger.file with
      | none => exact .refl _ _
      | some path =>
          simp only [Option.toList_some]
          cases happend : w.disk.append path
              (Text.encode (String.join (notes.filterMap logger.line))) with
          | error f => exact .refl _ _
          | ok d => exact Disk.append_alters happend

end Batch.World

namespace Batch.Work

variable {α β : Type}

theorem bind_apply (work : Work σ α) (next : α → Work σ β) (w : World σ) :
    (work >>= next) w =
      match work w with
      | (.ok a, w) => next a w
      | (.error e, w) => (.error e, w) := by
  change (ExceptT.bindCont next (work w).1) (work w).2 = _
  rcases work w with ⟨result, w'⟩
  cases result <;> rfl

theorem bind_eq_ok {work : Work σ α} {next : α → Work σ β} {w w' : World σ} {b : β}
    (h : (work >>= next) w = (.ok b, w')) :
    ∃ a w₁, work w = (.ok a, w₁) ∧ next a w₁ = (.ok b, w') := by
  rw [bind_apply] at h
  rcases hwork : work w with ⟨result, w₁⟩
  rw [hwork] at h
  cases result with
  | error e => cases h
  | ok a => exact ⟨a, w₁, rfl, h⟩

theorem bind_of_ok {work : Work σ α} {next : α → Work σ β} {w w₁ : World σ} {a : α}
    (h : work w = (.ok a, w₁)) : (work >>= next) w = next a w₁ := by
  rw [bind_apply, h]

theorem fst_bind_of_error {work : Work σ α} {next : α → Work σ β} {w : World σ} {e : Error}
    (h : (work w).1 = .error e) : ((work >>= next) w).1 = .error e := by
  rw [bind_apply]
  rcases hwork : work w with ⟨result, w₁⟩
  rw [hwork] at h
  obtain rfl : result = .error e := h
  rfl

theorem bind_congr {work : Work σ α} {next next' : α → Work σ β} {w : World σ}
    (h : ∀ a w₁, work w = (.ok a, w₁) → next a w₁ = next' a w₁) :
    (work >>= next) w = (work >>= next') w := by
  rw [bind_apply, bind_apply]
  rcases hwork : work w with ⟨result, w₁⟩
  cases result with
  | error e => rfl
  | ok a => exact h a w₁ hwork

theorem pure_eq_ok {a b : α} {w w' : World σ} (h : (pure a : Work σ α) w = (.ok b, w')) :
    b = a ∧ w' = w := by
  obtain ⟨ha, rfl⟩ := Prod.mk.inj h
  exact ⟨(Except.ok.inj ha).symm, rfl⟩

theorem ofResult_apply (x : Except Error α) (w : World σ) : ofResult x w = (x, w) := by
  cases x <;> rfl

theorem ask_apply (f : Disk → Except FileFault α) (w : World σ) :
    ask f w = ((f w.disk).mapError .file, w) := by
  change ofResult ((f w.disk).mapError .file) w = _
  rw [ofResult_apply]

theorem change_apply (f : Disk → Except FileFault Disk) (w : World σ) :
    change f w =
      match f w.disk with
      | .ok d => (.ok (), { w with disk := d })
      | .error e => (.error (.file e), w) := by
  rw [change, bind_apply, ask_apply]
  cases f w.disk <;> rfl

theorem change_eq_ok {f : Disk → Except FileFault Disk} {w w' : World σ}
    (h : change f w = (.ok (), w')) : f w.disk = .ok w'.disk ∧ w'.state = w.state := by
  rw [change_apply] at h
  cases hf : f w.disk with
  | error e =>
      rw [hf] at h
      cases h
  | ok d =>
      rw [hf] at h
      obtain rfl := (Prod.mk.inj h).2
      exact ⟨rfl, rfl⟩

theorem disk_of_change_eq_error {f : Disk → Except FileFault Disk} {e : Error} {w w' : World σ}
    (h : change f w = (.error e, w')) : w'.disk = w.disk := by
  rw [change_apply] at h
  cases hf : f w.disk with
  | error e' =>
      rw [hf] at h
      rw [(Prod.mk.inj h).2]
  | ok d =>
      rw [hf] at h
      cases h

theorem ofResult_eq_ok {x : Except Error α} {a : α} {w w' : World σ}
    (h : ofResult x w = (.ok a, w')) : x = .ok a ∧ w' = w := by
  rw [ofResult_apply] at h
  obtain ⟨rfl, rfl⟩ := Prod.mk.inj h
  exact ⟨rfl, rfl⟩

theorem tell_bind_eq_ok {line : String} {next : Unit → Work σ β} {w w' : World σ} {b : β}
    (h : (tell line >>= next) w = (.ok b, w')) :
    ∃ w₁, w₁.disk = w.disk ∧ w₁.state = w.state ∧ w₁.logger = w.logger ∧ next () w₁ = (.ok b, w') :=
  ⟨{ w with said := w.said ++ [.out (line ++ "\n")] }, rfl, rfl, rfl, h⟩

theorem makeFolders_eq_ok {path : String} {w w' : World σ} (h : makeFolders path w = (.ok (), w')) :
    w.disk.ensureFolders path = (w'.disk, none) ∧ w'.state = w.state ∧ w'.logger = w.logger := by
  rw [makeFolders] at h
  rcases hmade : w.disk.ensureFolders path with ⟨d, fault⟩
  rw [hmade] at h
  cases fault with
  | none =>
      obtain ⟨-, rfl⟩ := Prod.mk.inj h
      exact ⟨rfl, rfl, rfl⟩
  | some f => cases h

/-- Whatever comes of it, some work makes folders at most, or changes what some paths lead to or the
log file, which stays where it is. -/
structure Confined (paths : List String) (work : Work σ α) : Prop where
  logger : ∀ w : World σ, (work w).2.logger = w.logger
  touches : ∀ w : World σ, w.disk.Touches (paths ++ w.logPaths) (work w).2.disk

namespace Confined

variable {paths paths' : List String}

theorem of_eq {work : Work σ α} (h : ∀ w, (work w).2 = w) : Confined paths work := by
  refine ⟨fun w => by rw [h], fun w => ?_⟩
  rw [h]
  exact .refl _ _

theorem mono {work : Work σ α} (h : Confined paths work) (hsub : paths ⊆ paths') :
    Confined paths' work :=
  ⟨h.logger, fun w => (h.touches w).mono (List.append_subset.mpr
    ⟨List.subset_append_of_subset_left _ hsub, List.subset_append_right _ _⟩)⟩

theorem pure (a : α) : Confined paths (Pure.pure a : Work σ α) := of_eq fun _ => rfl

theorem ofResult (x : Except Error α) : Confined paths (Work.ofResult x : Work σ α) :=
  of_eq fun w => by rw [ofResult_apply]

theorem ask (f : Disk → Except FileFault α) : Confined paths (Work.ask f : Work σ α) :=
  of_eq fun w => by rw [ask_apply]

theorem tell (line : String) : Confined paths (Work.tell line : Work σ Unit) :=
  ⟨fun _ => rfl, fun _ => .refl _ _⟩

theorem change {f : Disk → Except FileFault Disk} (h : ∀ d d', f d = .ok d' → d.Touches paths d') :
    Confined paths (Work.change f : Work σ Unit) := by
  constructor
  · intro w
    rw [change_apply]
    cases f w.disk <;> rfl
  · intro w
    rw [change_apply]
    cases hf : f w.disk with
    | error e => exact .refl _ _
    | ok d => exact (h _ _ hf).mono (List.subset_append_left _ _)

theorem makeFolders (path : String) : Confined paths (Work.makeFolders path : Work σ Unit) :=
  ⟨fun _ => rfl, fun w => (w.disk.ensureFolders_touches path).mono (List.nil_subset _)⟩

theorem bind {work : Work σ α} {next : α → Work σ β} (h : Confined paths work)
    (hnext : ∀ a, Confined paths (next a)) : Confined paths (work >>= next) := by
  have hstep : ∀ w : World σ, ((work >>= next) w).2 = (work w).2 ∨
      ∃ a, ((work >>= next) w).2 = (next a (work w).2).2 := by
    intro w
    rw [bind_apply]
    rcases work w with ⟨result, w₁⟩
    cases result with
    | error e => exact .inl rfl
    | ok a => exact .inr ⟨a, rfl⟩
  constructor
  · intro w
    rcases hstep w with heq | ⟨a, heq⟩ <;> rw [heq]
    · exact h.logger w
    · rw [(hnext a).logger, h.logger]
  · intro w
    rcases hstep w with heq | ⟨a, heq⟩ <;> rw [heq]
    · exact h.touches w
    · have hmore := (hnext a).touches (work w).2
      rw [World.logPaths, h.logger, ← World.logPaths] at hmore
      exact (h.touches w).trans hmore

theorem outcome {work : Work σ α} (h : Confined paths work) : Confined paths (Work.outcome work) :=
  ⟨h.logger, h.touches⟩

end Confined

end Batch.Work

/-- A result of something that went wrong. It may tell of an output, but of no report. -/
def Report.FileResult.Fails (r : FileResult) : Prop :=
  r.success = false ∧ r.errors ≠ [] ∧ r.mappingPath = none

theorem Report.FileResult.fails_withError {r : FileResult} (h : r.mappingPath = none) (text : String) :
    (r.withError text).Fails := ⟨rfl, by simp [withError], h⟩

namespace Batch

variable {b : Batch σ} {r r' : FileResult} {w w' : World σ}

theorem enter_eq_ok {e : Error} (h : enter r e w = (.ok r', w')) :
    (∃ text, r' = r.withError text) ∧ w'.disk = w.disk := by
  have htell : ∀ {text line : String}, (do Work.tell line; return r.withError text : Work σ FileResult) w =
      (.ok r', w') → (∃ text, r' = r.withError text) ∧ w'.disk = w.disk := by
    intro text line htell
    obtain ⟨hr, hw⟩ := Prod.mk.inj htell
    exact ⟨⟨text, (Except.ok.inj hr).symm⟩, by rw [← hw]⟩
  cases e with
  | request e => exact htell h
  | file f =>
      cases f with
      | nullByte => cases h
      | _ => exact htell h
  | decode e => exact htell h
  | encode e => exact htell h
  | unwritable name => exact htell h
  | _ => cases h

/-- An attempt goes on, or ends in an error that is entered. -/
theorem attempt_cases {α : Type} {work : Work σ α} {next : α → Work σ FileResult}
    (h : attempt r work next w = (.ok r', w')) :
    (∃ a w₁, work w = (.ok a, w₁) ∧ next a w₁ = (.ok r', w')) ∨
      ∃ e w₁, work w = (.error e, w₁) ∧ (∃ text, r' = r.withError text) ∧ w'.disk = w₁.disk := by
  rw [attempt, Work.bind_apply, Work.outcome] at h
  rcases hwork : work w with ⟨result, w₁⟩
  rw [hwork] at h
  cases result with
  | ok a => exact .inl ⟨a, w₁, rfl, h⟩
  | error e => exact .inr ⟨e, w₁, rfl, enter_eq_ok h⟩

theorem confined_enter {paths : List String} (e : Error) :
    Work.Confined paths (enter r e : Work σ FileResult) := by
  have htell : ∀ text : String, Work.Confined paths (do
      Work.tell ("Error: " ++ e.message)
      return r.withError text : Work σ FileResult) := fun text => .bind (.tell _) fun _ => .pure _
  cases e with
  | request _ => exact htell _
  | file f =>
      cases f with
      | nullByte => exact .of_eq fun _ => rfl
      | _ => exact htell _
  | decode _ => exact htell _
  | encode _ => exact htell _
  | unwritable _ => exact htell _
  | _ => exact .of_eq fun _ => rfl

theorem confined_attempt {α : Type} {paths : List String} {work : Work σ α}
    {next : α → Work σ FileResult} (h : Work.Confined paths work)
    (hnext : ∀ a, Work.Confined paths (next a)) : Work.Confined paths (attempt r work next) := by
  refine .bind h.outcome fun result => ?_
  cases result with
  | ok a => exact hnext a
  | error e => exact confined_enter e

section Reading

variable (b)

/-- The encoding of files. -/
def encoding : Except Error Text.Codec := b.encodingName >>= b.codec

def textAt (d : Disk) (path : String) : Except Error String := do
  let name ← b.encodingName
  let bytes ← (d.read path).mapError .file
  let codec ← b.codec name
  let text ← (codec.decode bytes).mapError .decode
  .ok (String.ofList (Text.unifyLineEnds text))

def redaction (d : Disk) (state : σ) (input : String) (hint : Value) : Except Error Redaction := do
  let text ← b.textAt d input
  (b.redactor.redact b.parser { text := .text text, hint, includeMapping := some true } state).result

theorem readText_apply (path : String) (w : World σ) :
    b.readText path w = (b.textAt w.disk path, w) := by
  rw [readText, textAt, Work.bind_apply, Work.ofResult_apply]
  cases b.encodingName with
  | error e => rfl
  | ok name =>
      change (Work.ask _ >>= _) w = _
      rw [Work.bind_apply, Work.ask_apply]
      cases (w.disk.read path).mapError Error.file with
      | error e => rfl
      | ok bytes =>
          change (Work.ofResult (b.codec name) >>= _) w = _
          rw [Work.bind_apply, Work.ofResult_apply]
          cases hcodec : b.codec name with
          | error e => simp [bind, Except.bind, hcodec]
          | ok codec =>
              change (Work.ofResult _ >>= _) w = _
              rw [Work.bind_apply, Work.ofResult_apply]
              cases hdecode : (codec.decode bytes).mapError Error.decode with
              | error e => simp [bind, Except.bind, hcodec, hdecode]
              | ok text => simp [bind, Except.bind, hcodec, hdecode]; rfl

theorem redaction_congr {d d' : Disk} {input : String} (h : d'.read input = d.read input) (state : σ)
    (hint : Value) : b.redaction d' state input hint = b.redaction d state input hint := by
  rw [redaction, redaction, textAt, textAt, h]

end Reading

section Saving

variable (b)

/-- Where the copy of a file goes. -/
def backupPath (d : Disk) (input : String) : String := d.copyPath input (input ++ ".backup")

/-- A disk after the backup, if there is to be one. -/
def BackedUp (d : Disk) (input : String) (d' : Disk) : Prop :=
  (b.options.backup = false ∧ d' = d) ∨
    (b.options.backup = true ∧
      ∃ bytes, d.read input = .ok bytes ∧ d.write (backupPath d input) bytes = .ok d')

theorem backUp_cases {input : String} {result : Except Error Unit}
    (h : (if b.options.backup then backUp input else pure ()) w = (result, w')) :
    w'.logger = w.logger ∧ ((∃ e, result = .error e ∧ w'.disk = w.disk) ∨
      (result = .ok () ∧ b.BackedUp w.disk input w'.disk ∧ w'.state = w.state)) := by
  by_cases hbackup : b.options.backup = true
  · rw [if_pos hbackup, backUp, Work.bind_apply, Work.change_apply] at h
    cases hcopy : w.disk.copy input (input ++ ".backup") with
    | error e =>
        rw [hcopy] at h
        obtain ⟨rfl, rfl⟩ := Prod.mk.inj h
        exact ⟨rfl, .inl ⟨_, rfl, rfl⟩⟩
    | ok d =>
        rw [hcopy] at h
        obtain ⟨rfl, rfl⟩ := Prod.mk.inj h
        exact ⟨rfl, .inr ⟨rfl, .inr ⟨hbackup, (Disk.copy_eq_ok_iff.mp hcopy).2⟩, rfl⟩⟩
  · rw [if_neg hbackup] at h
    obtain ⟨rfl, rfl⟩ := Prod.mk.inj h
    exact ⟨rfl, .inr ⟨rfl, .inl ⟨by simpa using hbackup, rfl⟩, rfl⟩⟩

/-- Whatever the copy is written over, the file itself is as it was. -/
theorem BackedUp.get?_input {d d' : Disk} {input : String} (h : b.BackedUp d input d') {place : Place}
    {c : Content} (hlocate : d.locate input = .ok place) (hget : d.get? place = some c) :
    d'.get? place = some c := by
  rcases h with ⟨-, rfl⟩ | ⟨-, bytes, hread, hwrite⟩
  · exact hget
  obtain ⟨target, -, ⟨htarget, rfl⟩ | ⟨-, rfl⟩⟩ := Disk.write_cases hwrite
  · rw [Disk.get?_set d (Disk.ne_nil_of_get? htarget.ne_folder)]
    by_cases hsame : place = target
    · -- A copy of the file to itself would leave its own bytes there.
      subst hsame
      rcases htarget with hnone | ⟨old, hold⟩
      · cases hnone.symm.trans hget
      · obtain ⟨place', hlocate', -, hbytes⟩ := Disk.read_eq_ok_iff.mp hread
        obtain rfl := Except.ok.inj (hlocate.symm.trans hlocate')
        rw [if_pos rfl, ← hget]
        rcases hbytes with hbytes | ⟨hdevice, -⟩
        · exact hbytes.symm
        · cases hold.symm.trans hdevice
    · rw [if_neg hsame, hget]
  · exact hget

theorem BackedUp.alters {d d' : Disk} {input : String} (h : b.BackedUp d input d') :
    d.Alters [backupPath d input] d' := by
  rcases h with ⟨-, rfl⟩ | ⟨-, bytes, -, hwrite⟩
  · exact .refl _ _
  · exact Disk.write_alters hwrite

theorem BackedUp.read_eq {d d' : Disk} {input : String} (h : b.BackedUp d input d') :
    d'.read input = d.read input := by
  have hkeeps := h.alters.toKeeps
  rcases id h with ⟨-, rfl⟩ | ⟨-, bytes, hread, -⟩
  · rfl
  rw [hread]
  obtain ⟨place, hlocate, hallowed, hget⟩ := Disk.read_eq_ok_iff.mp hread
  refine Disk.read_eq_ok_iff.mpr ⟨place, hkeeps.locate hlocate, hkeeps.refused ▸ hallowed, ?_⟩
  exact hget.imp (h.get?_input b hlocate) (And.imp_left (h.get?_input b hlocate))

theorem announce_cases {input : String} {result : Except Error Unit}
    (h : announce input w = (result, w')) :
    w'.disk = w.disk ∧ w'.state = w.state ∧ w'.logger = w.logger ∧
      ∀ e, result = .error e → ∃ e, b.textAt w.disk input = .error e := by
  rw [announce, Work.bind_apply, Work.ask_apply] at h
  cases hsize : w.disk.size input with
  | error e =>
      rw [hsize] at h
      obtain ⟨rfl, rfl⟩ := Prod.mk.inj h
      obtain ⟨f, hread⟩ := Disk.read_of_size_error hsize
      refine ⟨rfl, rfl, rfl, fun _ _ => ?_⟩
      rw [textAt, hread]
      cases b.encodingName with
      | error e => exact ⟨e, rfl⟩
      | ok name => exact ⟨.file f, rfl⟩
  | ok bytes =>
      rw [hsize] at h
      obtain ⟨rfl, rfl⟩ := Prod.mk.inj h
      exact ⟨rfl, rfl, rfl, fun e he => by cases he⟩

def fill (path text : String) : Work σ Unit := do
  let name ← Work.ofResult b.encodingName
  Work.change (·.write path [])
  let codec ← Work.ofResult (b.codec name)
  let bytes ← Work.ofResult ((codec.encode text).mapError .encode)
  Work.change (·.write path bytes)

theorem writeText_eq (path text : String) :
    b.writeText path text =
      if !(Files.folderOf path).isEmpty then
        Work.makeFolders (Files.folderOf path) >>= fun _ => b.fill path text
      else b.fill path text := rfl

theorem confined_writeText (path text : String) : Work.Confined [path] (b.writeText path text) := by
  have hwrite : ∀ bytes : Bytes, Work.Confined [path] (Work.change (·.write path bytes) : Work σ Unit) :=
    fun bytes => .change fun _ _ h => (Disk.write_alters h).touches
  have hfill : Work.Confined [path] (b.fill path text) :=
    (Work.Confined.ofResult _).bind fun _ => (hwrite []).bind fun _ =>
      (Work.Confined.ofResult _).bind fun _ => (Work.Confined.ofResult _).bind fun bytes => hwrite bytes
  rw [writeText_eq]
  split
  · exact .bind (.makeFolders _) fun _ => hfill
  · exact hfill

theorem fill_eq_ok {path text : String} (h : b.fill path text w = (.ok (), w')) :
    ∃ codec bytes, b.encoding = .ok codec ∧ codec.encode text = .ok bytes ∧
      w'.disk.Holds path bytes := by
  obtain ⟨name, w₁, hname, h⟩ := Work.bind_eq_ok h
  obtain ⟨-, w₂, -, h⟩ := Work.bind_eq_ok h
  obtain ⟨codec, w₃, hcodec, h⟩ := Work.bind_eq_ok h
  obtain ⟨bytes, w₄, hbytes, h⟩ := Work.bind_eq_ok h
  obtain ⟨hname, -⟩ := Work.ofResult_eq_ok hname
  obtain ⟨hcodec, -⟩ := Work.ofResult_eq_ok hcodec
  obtain ⟨hbytes, -⟩ := Work.ofResult_eq_ok hbytes
  obtain ⟨hwrite, -⟩ := Work.change_eq_ok h
  exact ⟨codec, bytes, Traversal.bind_eq_ok_iff.mpr ⟨name, hname, hcodec⟩, Traversal.mapError_eq_ok_iff.mp hbytes, Disk.holds_of_write hwrite⟩

theorem writeText_eq_ok {path text : String} (h : b.writeText path text w = (.ok (), w')) :
    ∃ codec bytes, b.encoding = .ok codec ∧ codec.encode text = .ok bytes ∧
      w'.disk.Holds path bytes := by
  rw [writeText_eq] at h
  split at h
  · obtain ⟨-, w₁, -, h⟩ := Work.bind_eq_ok h
    exact b.fill_eq_ok h
  · exact b.fill_eq_ok h

def reportOf (source : String) (redaction : Redaction) : Report.MappingReport :=
  { source, profile := redaction.profile, strategy := b.redactor.supply.strategy,
    timestamp := b.timestamp, mapping := redaction.mapping.getD [] }

/-- The files that a run on a file leaves. -/
def written (output : String) : List String :=
  output :: if b.options.writeMapping then [mappingPath output] else []

/-- The report goes where the output went. -/
def Collides (d : Disk) (output : String) : Prop :=
  b.options.writeMapping = true ∧
    ∃ place, d.locate output = .ok place ∧ d.locate (mappingPath output) = .ok place

/-- A file is redacted: the output and its report are there, as the result tells. A report that goes
where the output went is written over it. -/
structure Delivers (d : Disk) (output : String) (redaction : Redaction) (r : FileResult) : Prop where
  success : r.success = true
  errors : r.errors = []
  replaced : r.replaced = redaction.replaced
  distinct : r.distinct = (redaction.mapping.getD []).length
  outputPath : r.outputPath = some output
  code : ∃ codec bytes, b.encoding = .ok codec ∧ codec.encode redaction.code = .ok bytes ∧
    (d.Holds output bytes ∨ b.Collides d output)
  mappingPath : r.mappingPath = if b.options.writeMapping then some (mappingPath output) else none
  report : b.options.writeMapping = true → d.Holds (Batch.mappingPath output)
    (Text.encode (Report.json 0 (b.reportOf r.inputPath redaction).toValue))

end Saving

/-- Without a link or a second name the report is not written over the output. -/
theorem Delivers.not_collides {d : Disk} {output : String} {redaction : Redaction}
    (h : b.Delivers d output redaction r) (houtput : d.Direct output)
    (hreport : d.Direct (Batch.mappingPath output)) : ¬ b.Collides d output := by
  rintro ⟨hwrite, place, hplace, hsame⟩
  obtain ⟨target, htarget, hget⟩ := h.report hwrite
  obtain rfl := Except.ok.inj (hsame.symm.trans htarget)
  have hfolder : d.get? place ≠ some .folder := by
    rcases hget with hget | hget <;> simp [hget]
  obtain ⟨parent, left, last, hends⟩ := Disk.exists_ends hplace hfolder
  have hname : IsName (last ++ ".mapping.json") := Disk.isName_append hends.part (by decide) (by decide)
  have hbeside : d.Ends (Batch.mappingPath output) parent left (last ++ ".mapping.json") :=
    hends.extended (by decide) (by decide)
  have hown := hends.locate_of_plain (houtput _ hends.entryOf_eq)
  have hother := hbeside.locate_of_plain (hreport _ hbeside.entryOf_eq)
  rw [Disk.step_of_isName hname] at hother
  obtain rfl := Except.ok.inj (hplace.symm.trans hown)
  exact hends.step_ne (by decide) (Except.ok.inj (hsame.symm.trans hother))

theorem Delivers.exists_holds {d : Disk} {output : String} {redaction : Redaction}
    (h : b.Delivers d output redaction r) : ∃ bytes, d.Holds output bytes := by
  obtain ⟨-, bytes, -, -, hholds | ⟨hwrite, place, hplace, hsame⟩⟩ := h.code
  · exact ⟨bytes, hholds⟩
  · obtain ⟨target, htarget, hget⟩ := h.report hwrite
    obtain rfl := Except.ok.inj (hsame.symm.trans htarget)
    exact ⟨_, place, hplace, hget⟩

/-- A result tells of no output, or of one that is there. -/
def Tells (d : Disk) (output : String) (r : FileResult) : Prop :=
  r.outputPath = none ∨ (r.outputPath = some output ∧ ∃ bytes, d.Holds output bytes)

theorem confined_writeOutput (output : String) (redaction : Redaction) :
    Work.Confined (b.written output) (b.writeOutput r output redaction) := by
  have hsub : [output] ⊆ b.written output := List.cons_subset_cons _ (List.nil_subset _)
  refine .bind (.tell _) fun _ => confined_attempt ((b.confined_writeText _ _).mono hsub) fun _ => ?_
  split
  next hreport =>
    have hsub' : [mappingPath output] ⊆ b.written output := by simp [written, hreport]
    exact confined_attempt (.change fun _ _ h => (Disk.write_alters h).touches.mono hsub') fun _ =>
      .bind (.tell _) fun _ => .pure _
  next => exact .pure _

theorem writeOutput_cases {output : String} {redaction : Redaction}
    (h : b.writeOutput r output redaction w = (.ok r', w')) (herrors : r.errors = [])
    (houtput : r.outputPath = none) (hmapping : r.mappingPath = none)
    (hreplaced : r.replaced = redaction.replaced)
    (hdistinct : r.distinct = (redaction.mapping.getD []).length) :
    (r'.inputPath = r.inputPath ∧ r'.language = r.language) ∧
      ((r'.Fails ∧ Tells w'.disk output r') ∨ b.Delivers w'.disk output redaction r') := by
  obtain ⟨w₁, -, -, -, h⟩ := Work.tell_bind_eq_ok h
  rcases attempt_cases h with ⟨_, w₂, hwrite, h⟩ | ⟨e, w₂, -, ⟨text, rfl⟩, -⟩
  swap
  · exact ⟨⟨rfl, rfl⟩, .inl ⟨Report.FileResult.fails_withError hmapping text, .inl houtput⟩⟩
  obtain ⟨codec, bytes, hcodec, hbytes, hholds⟩ := b.writeText_eq_ok hwrite
  by_cases hreport : b.options.writeMapping = true
  · rw [if_pos hreport] at h
    rcases attempt_cases h with ⟨_, w₃, hsaved, h⟩ | ⟨e, w₃, hfailed, ⟨text, rfl⟩, hdisk⟩
    · obtain ⟨w₄, hw₄, -, -, h⟩ := Work.tell_bind_eq_ok h
      obtain ⟨rfl, rfl⟩ := Work.pure_eq_ok h
      obtain ⟨hsaved, -⟩ := Work.change_eq_ok hsaved
      have htouches := (Disk.write_alters hsaved).touches
      rw [hw₄]
      -- The output is as it was, unless the report has just been written over it.
      have hcode : w₃.disk.Holds output bytes ∨ b.Collides w₃.disk output := by
        obtain ⟨place, hplace, -⟩ := id hholds
        by_cases hsame : w₃.disk.locate (mappingPath output) = .ok place
        · exact .inr ⟨hreport, place, htouches.toKeeps.locate hplace, hsame⟩
        · refine .inl (htouches.holds hholds fun q hq path hpath => ?_)
          rw [List.mem_singleton.mp hpath, ← Except.ok.inj (hplace.symm.trans hq)]
          exact hsame
      exact ⟨⟨rfl, rfl⟩, .inr ⟨rfl, herrors, hreplaced, hdistinct, rfl,
        ⟨codec, bytes, hcodec, hbytes, hcode⟩, (if_pos hreport).symm,
        fun _ => Disk.holds_of_write hsaved⟩⟩
    · -- The output stays where its report cannot be written.
      have hsame : w₃.disk = w₂.disk := Work.disk_of_change_eq_error hfailed
      rw [hdisk, hsame]
      exact ⟨⟨rfl, rfl⟩,
        .inl ⟨Report.FileResult.fails_withError hmapping text, .inr ⟨rfl, bytes, hholds⟩⟩⟩
  · rw [if_neg hreport] at h
    obtain ⟨rfl, rfl⟩ := Work.pure_eq_ok h
    exact ⟨⟨rfl, rfl⟩, .inr ⟨rfl, herrors, hreplaced, hdistinct, rfl,
      ⟨codec, bytes, hcodec, hbytes, .inl hholds⟩, hmapping.trans (if_neg hreport).symm,
      fun h => absurd h hreport⟩⟩

/-- The run on a file that can be read and that is backed up. -/
def rewrite (b : Batch σ) (r : FileResult) (input output : String) : Work σ FileResult :=
  attempt r (b.readText input) fun text =>
  attempt r (b.redactText (.text text) r.language) fun redaction => do
    let distinct := (redaction.mapping.getD []).length
    let r := { r with replaced := redaction.replaced, distinct := distinct }
    Work.tell ("Replaced " ++ toString redaction.replaced ++ " identifier occurrences (" ++
      toString distinct ++ " distinct)")
    let r := if redaction.replaced = 0 then r.withWarning "No identifiers found" else r
    b.writeOutput r output redaction

theorem redactFile_eq (b : Batch σ) (r : FileResult) (input output : String) :
    b.redactFile r input output =
      attempt r (if b.options.backup then backUp input else pure ()) fun _ =>
      attempt r (announce input) fun _ => b.rewrite r input output := rfl

theorem confined_redactText (paths : List String) (text hint : Value) :
    Work.Confined paths (b.redactText text hint) :=
  ⟨fun _ => rfl, fun w =>
    (World.noted_alters (w.withState _) _).touches.mono (List.subset_append_right _ _)⟩

theorem redactText_alters (text hint : Value) (w : World σ) :
    w.disk.Alters w.logPaths (b.redactText text hint w).2.disk :=
  World.noted_alters (w.withState _) _

theorem confined_rewrite (input output : String) :
    Work.Confined (b.written output)
      (attempt r (announce input) fun _ => b.rewrite r input output) := by
  have hannounce : Work.Confined (b.written output) (announce input : Work σ Unit) :=
    (Work.Confined.ask _).bind fun _ => .tell _
  have hread : Work.Confined (b.written output) (b.readText input) :=
    .of_eq fun w => by rw [readText_apply]
  refine confined_attempt hannounce fun _ => confined_attempt hread fun text =>
    confined_attempt (confined_redactText _ _ _) fun redaction => .bind (.tell _) fun _ => ?_
  split
  · exact confined_writeOutput _ _
  · exact confined_writeOutput _ _

theorem rewrite_cases {input output : String} (h : b.rewrite r input output w = (.ok r', w'))
    (herrors : r.errors = []) (houtput : r.outputPath = none) (hmapping : r.mappingPath = none) :
    (r'.inputPath = r.inputPath ∧ r'.language = r.language) ∧
      ((r'.Fails ∧ r'.outputPath = none ∧ w.disk.Alters w.logPaths w'.disk ∧
          ∃ e, b.redaction w.disk w.state input r.language = .error e) ∨
        ∃ redaction, b.redaction w.disk w.state input r.language = .ok redaction ∧
          ((r'.Fails ∧ Tells w'.disk output r') ∨ b.Delivers w'.disk output redaction r')) := by
  rcases attempt_cases h with ⟨source, w₁, hread, h⟩ | ⟨e, w₁, hread, ⟨text, rfl⟩, hdisk⟩
  swap
  · rw [readText_apply] at hread
    obtain ⟨htext, rfl⟩ := Prod.mk.inj hread
    refine ⟨⟨rfl, rfl⟩, .inl ⟨Report.FileResult.fails_withError hmapping text, houtput,
      hdisk ▸ .refl _ _, e, ?_⟩⟩
    rw [redaction, htext]
    rfl
  rw [readText_apply] at hread
  obtain ⟨htext, rfl⟩ := Prod.mk.inj hread
  have hredaction : b.redaction w.disk w.state input r.language =
      (b.redactor.redact b.parser ⟨.text source, r.language, some true⟩ w.state).result := by
    rw [redaction, htext]
    rfl
  rcases attempt_cases h with ⟨redaction, w₁, hredact, h⟩ | ⟨e, w₁, hredact, ⟨text, rfl⟩, hdisk⟩
  swap
  · have hnoted := redactText_alters (.text source) r.language w (b := b)
    rw [hredact] at hnoted
    exact ⟨⟨rfl, rfl⟩, .inl ⟨Report.FileResult.fails_withError hmapping text, houtput,
      hdisk ▸ hnoted, e, hredaction.trans (Prod.mk.inj hredact).1⟩⟩
  obtain ⟨w₂, -, -, -, h⟩ := Work.tell_bind_eq_ok h
  rw [hredaction]
  have hresult := (Prod.mk.inj hredact).1
  -- With the warning or without it the result has no error yet.
  split at h
  · obtain ⟨hkin, hend⟩ := writeOutput_cases h herrors houtput hmapping rfl rfl
    exact ⟨hkin, .inr ⟨redaction, hresult, hend⟩⟩
  · obtain ⟨hkin, hend⟩ := writeOutput_cases h herrors houtput hmapping rfl rfl
    exact ⟨hkin, .inr ⟨redaction, hresult, hend⟩⟩

/-- The ways out of a run on a file, with the disk that each leaves. -/
inductive Outcome (b : Batch σ) (input output : String) (hint : Value) (w : World σ) :
    FileResult → Disk → Prop
  | notAFile {r : FileResult} (hr : r.Fails) (houtput : r.outputPath = none)
      (hfile : w.disk.isFile input = false) : Outcome b input output hint w r w.disk
  | notBackedUp {r : FileResult} (hr : r.Fails) (houtput : r.outputPath = none)
      (hfile : w.disk.isFile input = true) : Outcome b input output hint w r w.disk
  | notRedacted {r : FileResult} {d d' : Disk} {e : Error} (hr : r.Fails)
      (houtput : r.outputPath = none) (hfile : w.disk.isFile input = true)
      (hbackup : b.BackedUp w.disk input d) (halters : d.Alters w.logPaths d')
      (hfailed : b.redaction w.disk w.state input hint = .error e) :
      Outcome b input output hint w r d'
  | notWritten {r : FileResult} {d d' : Disk} {redaction : Redaction} (hr : r.Fails)
      (houtput : Tells d' output r) (hfile : w.disk.isFile input = true)
      (hbackup : b.BackedUp w.disk input d)
      (hdone : b.redaction w.disk w.state input hint = .ok redaction)
      (htouches : d.Touches (b.written output ++ w.logPaths) d') :
      Outcome b input output hint w r d'
  | done {r : FileResult} {d d' : Disk} {redaction : Redaction}
      (hfile : w.disk.isFile input = true) (hbackup : b.BackedUp w.disk input d)
      (hdone : b.redaction w.disk w.state input hint = .ok redaction)
      (htouches : d.Touches (b.written output ++ w.logPaths) d')
      (hdelivers : b.Delivers d' output redaction r) :
      Outcome b input output hint w r d'

theorem redactFile_outcome {input output : String}
    (h : b.redactFile r input output w = (.ok r', w')) (hfile : w.disk.isFile input = true)
    (herrors : r.errors = []) (houtput : r.outputPath = none) (hmapping : r.mappingPath = none) :
    (r'.inputPath = r.inputPath ∧ r'.language = r.language) ∧
      b.Outcome input output r.language w r' w'.disk := by
  have hfails := Report.FileResult.fails_withError hmapping
  rw [redactFile_eq] at h
  rcases attempt_cases h with ⟨_, w₁, hsaved, h⟩ | ⟨e, w₁, hfailed, ⟨text, rfl⟩, hdisk⟩
  swap
  · obtain ⟨-, ⟨-, -, hsame⟩ | ⟨hok, -⟩⟩ := b.backUp_cases hfailed
    · rw [hdisk, hsame]
      exact ⟨⟨rfl, rfl⟩, .notBackedUp (hfails text) houtput hfile⟩
    · cases hok
  obtain ⟨hlogger, hsaved⟩ := b.backUp_cases hsaved
  obtain ⟨hbackup, hstate⟩ : b.BackedUp w.disk input w₁.disk ∧ w₁.state = w.state := by
    rcases hsaved with ⟨e, hok, -⟩ | ⟨-, hbackup⟩
    · cases hok
    · exact hbackup
  have htouches := (confined_rewrite input output (b := b) (r := r)).touches w₁
  rw [h, World.logPaths, hlogger, ← World.logPaths] at htouches
  -- The backup does not change what redaction sees.
  have hredaction := b.redaction_congr hbackup.read_eq w.state r.language
  rcases attempt_cases h with ⟨_, w₂, hannounce, h⟩ | ⟨e, w₂, hannounce, ⟨text, rfl⟩, hdisk⟩
  swap
  · obtain ⟨hsame, -, -, herror⟩ := b.announce_cases hannounce
    obtain ⟨e', htext⟩ := herror e rfl
    rw [redaction, htext] at hredaction
    rw [hdisk, hsame]
    exact ⟨⟨rfl, rfl⟩,
      .notRedacted (hfails text) houtput hfile hbackup (.refl _ _) hredaction.symm⟩
  obtain ⟨hsame, hstate', hlogger', -⟩ := b.announce_cases hannounce
  obtain ⟨hkin, hend⟩ := rewrite_cases h herrors houtput hmapping
  rw [hsame, hstate', hstate, hredaction, World.logPaths, hlogger', hlogger, ← World.logPaths] at hend
  refine ⟨hkin, ?_⟩
  rcases hend with
    ⟨hr, hnone, hnoted, e, hfailed⟩ | ⟨redaction, hdone, ⟨hr, htells⟩ | hdelivers⟩
  · exact .notRedacted hr hnone hfile hbackup hnoted hfailed
  · exact .notWritten hr htells hfile hbackup hdone htouches
  · exact .done hfile hbackup hdone htouches hdelivers

/-- The output path: the one given, or one made from the input. -/
def outputOf (b : Batch σ) (input : String) : Option String → Except Error String
  | some path => .ok path
  | none => b.outputPath input

/-- The hint for a file: the one given, or that for its ending. -/
def hintFor (b : Batch σ) (input : String) : Value → Except Error Value
  | .null => hintForPath input b.options.endingHints
  | hint => .ok hint

theorem processFile_of_isFile {input : String} (hfile : w.disk.isFile input = true)
    (output : Option String) (language : Value) :
    b.processFile input output language w =
      (Work.ofResult (b.outputOf input output) >>= fun output =>
        Work.ofResult (b.hintFor input language) >>= fun language =>
          b.redactFile { success := false, inputPath := input, language } input output) w := by
  have hthere : w.disk.isThere input = true := by
    obtain ⟨place, bytes, hlocate, hget⟩ := Disk.isFile_iff.mp hfile
    simp [Disk.isThere, Disk.find?, hlocate, hget]
  rw [processFile, Work.bind_apply]
  change (if (!w.disk.isThere input) = true then _ else _ : Work σ FileResult) w = _
  simp only [hthere, hfile, Bool.not_true, Bool.false_eq_true, if_false]
  cases output <;> cases language <;> rfl

theorem processFile_of_not_isFile {input : String} (hfile : w.disk.isFile input = false)
    (output : Option String) (language : Value) :
    ∃ text, b.processFile input output language w =
      (.ok (FileResult.withError { success := false, inputPath := input } text), w) := by
  rw [processFile, Work.bind_apply]
  change ∃ text, (if (!w.disk.isThere input) = true then _ else _ : Work σ FileResult) w = _
  by_cases hthere : w.disk.isThere input = true
  · simp only [hthere, hfile, Bool.not_true, Bool.not_false, Bool.false_eq_true, if_false, if_true]
    exact ⟨_, rfl⟩
  · simp only [hthere, Bool.not_false, if_true]
    exact ⟨_, rfl⟩

theorem processFile_outcome {input : String} {output : Option String} {language : Value}
    (h : b.processFile input output language w = (.ok r, w')) :
    r.inputPath = input ∧ ∃ out,
      (w.disk.isFile input = true →
        b.outputOf input output = .ok out ∧ b.hintFor input language = .ok r.language) ∧
      b.Outcome input out r.language w r w'.disk := by
  cases hfile : w.disk.isFile input with
  | false =>
      obtain ⟨text, hprocess⟩ := b.processFile_of_not_isFile hfile output language
      obtain ⟨hr, rfl⟩ := Prod.mk.inj (hprocess.symm.trans h)
      obtain rfl := Except.ok.inj hr
      exact ⟨rfl, "", by simp, .notAFile (Report.FileResult.fails_withError rfl text) rfl hfile⟩
  | true =>
      rw [processFile_of_isFile hfile] at h
      obtain ⟨out, w₁, hof, hmore⟩ := Work.bind_eq_ok h
      obtain ⟨hout, rfl⟩ := Work.ofResult_eq_ok hof
      obtain ⟨hint, w₂, hof', hredact⟩ := Work.bind_eq_ok hmore
      obtain ⟨hhint, rfl⟩ := Work.ofResult_eq_ok hof'
      obtain ⟨⟨hinput, hlanguage⟩, houtcome⟩ := redactFile_outcome hredact hfile rfl rfl rfl
      rw [hlanguage]
      exact ⟨hinput, out, fun _ => ⟨hout, hhint⟩, houtcome⟩

/-- Whatever comes of it, the work on a file changes nothing but its output, the report and the log
once the backup is made. -/
theorem processFile_touches {input out : String} {output : Option String}
    (hout : b.outputOf input output = .ok out) (language : Value) (w : World σ) :
    (b.processFile input output language w).2.logger = w.logger ∧
      ∃ d, (d = w.disk ∨ b.BackedUp w.disk input d) ∧
        d.Touches (b.written out ++ w.logPaths) (b.processFile input output language w).2.disk := by
  cases hfile : w.disk.isFile input with
  | false =>
      obtain ⟨text, hprocess⟩ := b.processFile_of_not_isFile hfile output language
      rw [hprocess]
      exact ⟨rfl, w.disk, .inl rfl, .refl _ _⟩
  | true =>
      rw [processFile_of_isFile hfile, hout, Work.bind_apply, Work.ofResult_apply]
      dsimp only
      cases hhint : b.hintFor input language with
      | error e => exact ⟨rfl, w.disk, .inl rfl, .refl _ _⟩
      | ok hint =>
          rw [Work.bind_apply, Work.ofResult_apply]
          dsimp only
          generalize { success := false, inputPath := input, language := hint : FileResult } = r
          rw [redactFile_eq, attempt, Work.bind_apply, Work.outcome]
          rcases hsaved : (if b.options.backup then backUp input else pure () : Work σ Unit) w with
            ⟨result, w₁⟩
          obtain ⟨hlogger, hcases⟩ := b.backUp_cases hsaved
          have hpaths : w₁.logPaths = w.logPaths := by rw [World.logPaths, hlogger, World.logPaths]
          rcases hcases with ⟨e, rfl, hsame⟩ | ⟨rfl, hbackup, -⟩
          · have hentered : Work.Confined (b.written out) (enter r e : Work σ FileResult) :=
              confined_enter e
            rw [← hsame, ← hpaths]
            exact ⟨(hentered.logger w₁).trans hlogger, w₁.disk, .inl rfl, hentered.touches w₁⟩
          · have hconfined := confined_rewrite input out (b := b) (r := r)
            rw [← hpaths]
            exact ⟨(hconfined.logger w₁).trans hlogger, w₁.disk, .inr hbackup, hconfined.touches w₁⟩

end Batch

end Pseudonym
