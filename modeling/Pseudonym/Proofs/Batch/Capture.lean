import Pseudonym.Proofs.Batch.Footprint
import Pseudonym.Proofs.Files.Nulls

namespace Pseudonym

open Files (Disk NullFree Path)
open Report (FileResult)

variable {σ : Type}

namespace Batch

variable {b : Batch σ} {r : FileResult} {w : World σ} {input output : String}

/-- The text that a failure is entered under, if it is one of the file. -/
def entered? : Error → Option String
  | .request e => some e.message
  | .file .nullByte => none
  | .file f => some ("Error processing file: " ++ f.message)
  | .decode f => some ("Error processing file: " ++ f.message)
  | .encode f => some ("Error processing file: " ++ f.message)
  | .unwritable name => some ("Error processing file: " ++ (Error.unwritable name).message)
  | _ => none

/-- How a run with a handler around it ends, by how it ends without one. -/
inductive Settled (input : String) :
    Except Error Unit × World σ → Except Error FileResult × World σ → Prop
  | done {r : FileResult} {w : World σ} (hsuccess : r.success = true) (herrors : r.errors = [])
      (hinput : r.inputPath = input) : Settled input (.ok (), w) (.ok r, w)
  | entered {e : Error} {text : String} {r : FileResult} {w : World σ} (htext : entered? e = some text)
      (hsuccess : r.success = false) (herrors : r.errors = [text]) (hinput : r.inputPath = input) :
      Settled input (.error e, w)
        (.ok r, { w with said := w.said ++ [.out ("Error: " ++ e.message ++ "\n")] })
  | raised {e : Error} {w : World σ} (he : entered? e = none) :
      Settled input (.error e, w) (.error e, w)

theorem enter_apply (r : FileResult) (e : Error) (w : World σ) :
    enter r e w =
      match entered? e with
      | some text =>
          (.ok (r.withError text), { w with said := w.said ++ [.out ("Error: " ++ e.message ++ "\n")] })
      | none => (.error e, w) := by
  cases e with
  | file f => cases f <;> rfl
  | _ => rfl

theorem settled_attempt {α : Type} {work : Work σ α} {rest : α → Work σ Unit}
    {next : α → Work σ FileResult} (herrors : r.errors = []) (hinput : r.inputPath = input)
    (h : ∀ a w₁, Settled input (rest a w₁) (next a w₁)) :
    Settled input ((work >>= rest) w) (attempt r work next w) := by
  rw [attempt, Work.bind_apply, Work.bind_apply, Work.outcome]
  rcases work w with ⟨result, w₁⟩
  cases result with
  | ok a => exact h a w₁
  | error e =>
      change Settled input (.error e, w₁) (enter r e w₁)
      rw [enter_apply]
      cases htext : entered? e with
      | some text => exact .entered htext rfl (by simp [FileResult.withError, herrors]) hinput
      | none => exact .raised htext

theorem settled_tell {line : String} {rest : Unit → Work σ Unit} {next : Unit → Work σ FileResult}
    (h : ∀ w₁, Settled input (rest () w₁) (next () w₁)) :
    Settled input ((Work.tell line >>= rest) w) ((Work.tell line >>= next) w) := h _

section Straight

variable (b)

def report (input output : String) (redaction : Redaction) : Work σ Unit :=
  if b.options.writeMapping then do
    b.writeReport (mappingPath output) input redaction
    Work.tell ("Mapping written: " ++ mappingPath output)
  else pure ()

/-- The work on a file, without a handler. -/
def straight (input output : String) (hint : Value) : Work σ Unit := do
  (if b.options.backup then backUp input else pure () : Work σ Unit)
  announce input
  let text ← b.readText input
  let redaction ← b.redactText (.text text) hint
  Work.tell ("Replaced " ++ toString redaction.replaced ++ " identifier occurrences (" ++
    toString (redaction.mapping.getD []).length ++ " distinct)")
  Work.tell ("Writing output: " ++ output)
  b.writeText output redaction.code
  b.report input output redaction

end Straight

theorem settled_writeOutput {redaction : Redaction} (herrors : r.errors = [])
    (hinput : r.inputPath = input) :
    Settled input
      ((do
        Work.tell ("Writing output: " ++ output)
        b.writeText output redaction.code
        b.report input output redaction : Work σ Unit) w)
      (b.writeOutput r output redaction w) := by
  subst hinput
  refine settled_tell fun w₁ => settled_attempt herrors rfl fun _ w₂ => ?_
  rw [report]
  split
  · exact settled_attempt herrors rfl fun _ w₃ => .done rfl herrors rfl
  · exact .done rfl herrors rfl

theorem settled_redactFile (herrors : r.errors = []) (hinput : r.inputPath = input) :
    Settled input (b.straight input output r.language w) (b.redactFile r input output w) := by
  refine settled_attempt herrors hinput fun _ w₁ => settled_attempt herrors hinput fun _ w₂ =>
    settled_attempt herrors hinput fun text w₃ => settled_attempt herrors hinput fun redaction w₄ =>
      settled_tell fun w₅ => ?_
  split
  · exact settled_writeOutput herrors hinput
  · exact settled_writeOutput herrors hinput

def Entered (e : Error) : Prop := ∃ text, entered? e = some text

theorem entered_file {f : FileFault} (h : f ≠ .nullByte) : Entered (.file f) := by
  cases f with
  | nullByte => exact absurd rfl h
  | _ => exact ⟨_, rfl⟩

theorem Settled.exists_result {x : Except Error Unit × World σ} {y : Except Error FileResult × World σ}
    (h : Settled input x y) (hx : ∀ e, x.1 = .error e → Entered e) : ∃ r, y.1 = .ok r := by
  cases h with
  | done => exact ⟨_, rfl⟩
  | entered => exact ⟨_, rfl⟩
  | raised he =>
      obtain ⟨text, htext⟩ := hx _ rfl
      cases he.symm.trans htext

theorem Settled.eq_error {x : Except Error Unit × World σ} {y : Except Error FileResult × World σ}
    (h : Settled input x y) {e : Error} (hx : x.1 = .error e) (he : entered? e = none) :
    y.1 = .error e := by
  cases h with
  | done => cases hx
  | entered htext =>
      obtain rfl := Except.error.inj hx
      cases he.symm.trans htext
  | raised => rw [Except.error.inj hx]

namespace Work

variable {α β : Type} {P : Error → Prop}

/-- Whatever it starts from, some work ends in failures of one kind only. -/
def FailsWith (P : Error → Prop) (work : Work σ α) : Prop := ∀ w e, (work w).1 = .error e → P e

namespace FailsWith

theorem pure (a : α) : FailsWith P (Pure.pure a : Work σ α) := by
  intro w e h
  cases h

theorem tell (line : String) : FailsWith P (Work.tell line : Work σ Unit) := by
  intro w e h
  cases h

theorem ofResult {x : Except Error α} (h : ∀ e, x = .error e → P e) :
    FailsWith P (Work.ofResult x : Work σ α) := by
  intro w e he
  rw [ofResult_apply] at he
  exact h e he

theorem ask {f : Disk → Except FileFault α} (h : ∀ d, f d ≠ .error .nullByte) :
    FailsWith Entered (Work.ask f : Work σ α) := by
  intro w e he
  rw [ask_apply] at he
  have hf := h w.disk
  cases hresult : f w.disk with
  | ok a =>
      rw [hresult] at he
      cases he
  | error fault =>
      rw [hresult] at he hf
      obtain rfl := Except.error.inj he
      refine entered_file ?_
      rintro rfl
      exact hf rfl

theorem mapError {ε : Type} {x : Except ε α} {f : ε → Error} (h : ∀ fault, P (f fault)) :
    FailsWith P (Work.ofResult (x.mapError f) : Work σ α) := by
  refine ofResult fun e he => ?_
  cases x with
  | ok a => cases he
  | error fault =>
      obtain rfl := Except.error.inj he
      exact h fault

theorem bind {work : Work σ α} {next : α → Work σ β} (h : FailsWith P work)
    (hnext : ∀ a, FailsWith P (next a)) : FailsWith P (work >>= next) := by
  intro w e he
  rw [bind_apply] at he
  rcases hwork : work w with ⟨result, w₁⟩
  rw [hwork] at he
  cases result with
  | ok a => exact hnext a w₁ e he
  | error e' =>
      obtain rfl := Except.error.inj he
      exact h w e' (by rw [hwork])

theorem bind_ofResult {x : Except Error α} {a : α} {next : α → Work σ β} (hx : x = .ok a)
    (hnext : FailsWith P (next a)) : FailsWith P (Work.ofResult x >>= next) := by
  subst hx
  exact hnext

theorem change {f : Disk → Except FileFault Disk}
    (h : ∀ d, f d ≠ .error .nullByte) : FailsWith Entered (Work.change f : Work σ Unit) := by
  refine bind (ask h) fun d w e he => ?_
  cases he

theorem makeFolders {path : String} (h : NullFree path) :
    FailsWith Entered (Work.makeFolders path : Work σ Unit) := by
  intro w e he
  have hfault : (w.disk.ensureFolders path).2 ≠ some .nullByte := Disk.ensureFoldersUpTo_ne_nullByte h _
  rw [Work.makeFolders] at he
  rcases hmade : w.disk.ensureFolders path with ⟨d, fault⟩
  rw [hmade] at he hfault
  cases fault with
  | none => cases he
  | some f =>
      obtain rfl := Except.error.inj he
      exact entered_file fun hf => hfault (congrArg some hf)

end FailsWith

end Work

open Work

section Failures

theorem nullFree_mappingPath {output : String} (h : NullFree output) : NullFree (mappingPath output) := by
  have hpath := Path.nullFree_ofText h
  exact (hpath.parent.join (Files.nullFree_append_iff.mpr ⟨hpath.name, by decide⟩)).text

theorem outputPath_eq {b : Batch σ} {suffix : String} (hsuffix : b.options.outputSuffix = .text suffix)
    (input : String) :
    b.outputPath input = .ok ((Path.ofText input).parent.join
      ((Path.ofText input).stem ++ suffix ++ (Path.ofText input).suffix)).text := by
  rw [outputPath, hsuffix]
  rfl

theorem nullFree_outputPath {b : Batch σ} {suffix input out : String}
    (hsuffix : b.options.outputSuffix = .text suffix) (h : NullFree suffix) (hinput : NullFree input)
    (hout : b.outputPath input = .ok out) : NullFree out := by
  have hpath := Path.nullFree_ofText hinput
  rw [outputPath_eq hsuffix] at hout
  rw [← Except.ok.inj hout]
  refine (hpath.parent.join ?_).text
  simp only [Files.nullFree_append_iff]
  exact ⟨⟨hpath.splitName.1, h⟩, hpath.splitName.2⟩

theorem backUp_failsWith (h : NullFree input) : FailsWith Entered (backUp input : Work σ Unit) := by
  refine .bind (.change fun d => Disk.copy_ne_nullByte h ?_) fun _ => .tell _
  exact Files.nullFree_append_iff.mpr ⟨h, by decide⟩

theorem announce_failsWith : FailsWith Entered (announce input : Work σ Unit) :=
  .bind (.ask fun _ => Disk.size_ne_nullByte) fun _ => .tell _

theorem readText_failsWith (hencoding : ∃ codec, b.encoding = .ok codec) :
    FailsWith Entered (b.readText input) := by
  obtain ⟨codec, hcodec⟩ := hencoding
  obtain ⟨name, hname, hcodec⟩ := Traversal.bind_eq_ok_iff.mp hcodec
  exact .bind_ofResult hname <| .bind (.ask fun _ => Disk.read_ne_nullByte) fun bytes =>
    .bind_ofResult hcodec <| .bind (.mapError fun f => ⟨_, rfl⟩) fun text => .pure _

theorem redactText_failsWith (text : Value) {hint : Value} (hhint : hint.display ≠ none) :
    FailsWith Entered (b.redactText text hint) := by
  intro w e he
  change (b.redactor.redact b.parser ⟨text, hint, some true⟩ w.state).result = .error e at he
  rcases b.redactor.redact_cases b.parser ⟨text, hint, some true⟩ w.state with
    ⟨-, hresult, -⟩ | ⟨-, hnone, -⟩ | ⟨-, -, -, ⟨_, hresult⟩, -⟩ |
      ⟨_, _, -, -, -, -, -, -, ⟨_, -, hresult⟩ | ⟨_, -, hresult⟩⟩
  · obtain rfl := Except.error.inj (hresult.symm.trans he)
    exact ⟨_, rfl⟩
  · exact absurd hnone hhint
  · obtain rfl := Except.error.inj (hresult.symm.trans he)
    exact ⟨_, rfl⟩
  · obtain rfl := Except.error.inj (hresult.symm.trans he)
    exact ⟨_, rfl⟩
  · cases hresult.symm.trans he

theorem writeText_failsWith (hencoding : ∃ codec, b.encoding = .ok codec)
    (h : NullFree output) (text : String) : FailsWith Entered (b.writeText output text) := by
  obtain ⟨codec, hcodec⟩ := hencoding
  obtain ⟨name, hname, hcodec⟩ := Traversal.bind_eq_ok_iff.mp hcodec
  have hwrite : ∀ bytes, FailsWith Entered (Work.change (·.write output bytes) : Work σ Unit) :=
    fun bytes => .change fun _ => Disk.write_ne_nullByte h
  have hfill : FailsWith Entered (b.fill output text) :=
    .bind_ofResult hname <| (hwrite []).bind fun _ =>
      .bind_ofResult hcodec <| .bind (.mapError fun f => ⟨_, rfl⟩) fun bytes => hwrite bytes
  rw [writeText_eq]
  split
  · exact .bind (.makeFolders h.splitLast.1) fun _ => hfill
  · exact hfill

theorem report_failsWith (h : NullFree output) (redaction : Redaction) :
    FailsWith Entered (b.report input output redaction) := by
  rw [report]
  split
  · refine .bind (.change fun _ => Disk.write_ne_nullByte ?_) fun _ => .tell _
    exact nullFree_mappingPath h
  · exact .pure ()

theorem straight_failsWith (hencoding : ∃ codec, b.encoding = .ok codec)
    (hinput : NullFree input) (houtput : NullFree output) {hint : Value} (hhint : hint.display ≠ none) :
    FailsWith Entered (b.straight input output hint) := by
  have hbackup : FailsWith Entered (if b.options.backup then backUp input else pure () : Work σ Unit) := by
    split
    · exact backUp_failsWith hinput
    · exact .pure ()
  exact hbackup.bind fun _ => announce_failsWith.bind fun _ =>
    (readText_failsWith hencoding).bind fun _ => (redactText_failsWith _ hhint).bind fun _ =>
      FailsWith.bind (.tell _) fun _ => FailsWith.bind (.tell _) fun _ =>
        (writeText_failsWith hencoding houtput _).bind fun _ => report_failsWith houtput _

end Failures

section Escapes

variable {name : String} {e : Error}

theorem exists_encoding_iff (h : b.options.encoding = .text name) :
    (∃ codec, b.encoding = .ok codec) ↔ NullFree name ∧ (b.codecs name).isSome = true := by
  rw [encoding, encodingName, h]
  dsimp only
  by_cases hnull : NullFree name
  · rw [if_neg (by simpa [NullFree] using hnull)]
    change (∃ codec, b.codec (some name) = .ok codec) ↔ _
    rw [codec]
    cases b.codecs name <;> simp [hnull]
  · rw [if_pos (by simpa [NullFree] using hnull)]
    simp [hnull, bind, Except.bind]

theorem textAt_of_encoding {d : Disk} {bytes : Text.Bytes} (h : b.encoding = .error e)
    (hread : d.read input = .ok bytes) : b.textAt d input = .error e := by
  rcases Traversal.bind_eq_error_iff.mp h with hname | ⟨name, hname, hcodec⟩
  · rw [textAt, hname]
    rfl
  · rw [textAt, hname, hread]
    simp only [bind, Except.bind, Except.mapError, hcodec]

theorem entered?_of_encoding (h : b.encoding = .error e) : entered? e = none := by
  rcases Traversal.bind_eq_error_iff.mp h with hname | ⟨name, -, hcodec⟩
  · rw [encodingName] at hname
    split at hname
    · cases hname
    · split at hname
      · obtain rfl := Except.error.inj hname
        rfl
      · cases hname
    · obtain rfl := Except.error.inj hname
      rfl
  · rw [codec.eq_def] at hcodec
    split at hcodec
    · cases hcodec
    · split at hcodec
      · cases hcodec
      · obtain rfl := Except.error.inj hcodec
        rfl

/-- Where there is no redaction the work ends with its error, once the backup is made. -/
theorem straight_of_redaction {hint : Value} (h : b.redaction w.disk w.state input hint = .error e)
    (hfile : w.disk.isFile input = true)
    (hbackup : b.options.backup = true → ∃ d, w.disk.copy input (input ++ ".backup") = .ok d)
    (output : String) : (b.straight input output hint w).1 = .error e := by
  obtain ⟨w₁, hsaved⟩ : ∃ w₁, (if b.options.backup then backUp input else pure () : Work σ Unit) w =
      (.ok (), w₁) := by
    split
    next hon =>
      obtain ⟨d, hcopy⟩ := hbackup hon
      rw [backUp, Work.bind_apply, Work.change_apply, hcopy]
      exact ⟨_, rfl⟩
    next => exact ⟨w, rfl⟩
  obtain ⟨hkept, hstate⟩ : b.BackedUp w.disk input w₁.disk ∧ w₁.state = w.state := by
    obtain ⟨-, ⟨_, hfailed, -⟩ | ⟨-, hkept⟩⟩ := b.backUp_cases hsaved
    · cases hfailed
    · exact hkept
  obtain ⟨place, bytes, hlocate, hget⟩ := Disk.isFile_iff.mp hfile
  have hsize : w₁.disk.size input = .ok bytes.length := by
    simp [Disk.size, hkept.alters.toKeeps.locate hlocate, hkept.get?_input b hlocate hget]
  obtain ⟨w₂, hannounce⟩ : ∃ w₂, announce input w₁ = (.ok (), w₂) := by
    rw [announce, Work.bind_apply, Work.ask_apply, hsize]
    exact ⟨_, rfl⟩
  obtain ⟨hdisk, hstate', -, -⟩ := b.announce_cases hannounce
  -- Only the backup has been written so far, and it leaves the input as it is.
  rw [← b.redaction_congr hkept.read_eq, ← hstate, ← hdisk, ← hstate'] at h
  rw [straight, Work.bind_of_ok hsaved, Work.bind_of_ok hannounce]
  cases htext : b.textAt w₂.disk input with
  | error e' =>
      rw [redaction, htext] at h
      obtain rfl := Except.error.inj h
      refine Work.fst_bind_of_error ?_
      rw [readText_apply, htext]
  | ok text =>
      have hread : b.readText input w₂ = (.ok text, w₂) := by rw [readText_apply, htext]
      rw [redaction, htext] at h
      rw [Work.bind_of_ok hread]
      exact Work.fst_bind_of_error h

end Escapes

/-- Hints for endings that are texts give a text or nothing. -/
theorem exists_hintFor {hints : List (String × String)}
    (h : b.options.endingHints = .map (hints.map fun e => (.text e.1, .text e.2))) (input : String)
    (language : Value) : ∃ hint, b.hintFor input language = .ok hint ∧
      (hint.display = none ↔ language.display = none) := by
  have hentries : Settings.entries b.options.endingHints.orEmpty =
      .ok (hints.map fun e => (.text e.1, .text e.2)) := by
    rw [h, Value.orEmpty]
    split
    · rfl
    next hempty =>
      have hnil : hints = [] := by simpa [Value.truthy] using hempty
      rw [hnil]
      rfl
  have hsearch : ∀ ending, ∃ hint, hintForPath.search ending
      (hints.map fun e => (Key.text e.1, Value.text e.2)) = .ok hint ∧ hint.display ≠ none := by
    intro ending
    clear h hentries
    induction hints with
    | nil => exact ⟨.null, rfl, by decide⟩
    | cons e hints ih =>
        rw [List.map_cons, hintForPath.search]
        split
        · exact ⟨_, rfl, Option.some_ne_none _⟩
        · exact ih
  cases language with
  | null =>
      rw [hintFor, hintForPath, hentries]
      obtain ⟨hint, hhint, hdisplay⟩ := hsearch (Text.lower (Path.ofText input).suffix)
      have hnull : (Value.null).display ≠ none := by decide
      exact ⟨hint, hhint, iff_of_false hdisplay hnull⟩
  | _ => exact ⟨_, rfl, Iff.rfl⟩

theorem exists_outputOf {suffix : String} (hsuffix : b.options.outputSuffix = .text suffix)
    (input : String) (output : Option String) : ∃ out, b.outputOf input output = .ok out := by
  cases output with
  | none => exact ⟨_, outputPath_eq hsuffix input⟩
  | some path => exact ⟨path, rfl⟩

theorem settled_processFile {output : Option String} {out : String} {language hint : Value}
    (hfile : w.disk.isFile input = true) (hout : b.outputOf input output = .ok out)
    (hhint : b.hintFor input language = .ok hint) :
    Settled input (b.straight input out hint w) (b.processFile input output language w) := by
  rw [processFile_of_isFile hfile, hout, Work.bind_apply, Work.ofResult_apply]
  dsimp only
  rw [Work.bind_apply, Work.ofResult_apply, hhint]
  exact settled_redactFile (r := { success := false, inputPath := input, language := hint }) rfl rfl

/-- Whatever goes wrong with a file is told in its result, unless the encoding has no known name, a
path no possible one or the hint no text. -/
theorem processFile_captured {output : Option String} {language : Value} {name suffix : String}
    {hints : List (String × String)} (hencoding : b.options.encoding = .text name)
    (hsuffix : b.options.outputSuffix = .text suffix)
    (hhints : b.options.endingHints = .map (hints.map fun e => (.text e.1, .text e.2)))
    (hdisk : w.disk.NullFree) :
    (w.disk.isFile input = false → ∃ text, b.processFile input output language w =
      (.ok (FileResult.withError { success := false, inputPath := input } text), w)) ∧
    (w.disk.isFile input = true → ∃ out hint, b.outputOf input output = .ok out ∧
      b.hintFor input language = .ok hint ∧
      Settled input (b.straight input out hint w) (b.processFile input output language w)) ∧
    (NullFree name ∧ (b.codecs name).isSome = true → NullFree suffix →
      (∀ path, output = some path → NullFree path) → language.display ≠ none →
        ∃ r, (b.processFile input output language w).1 = .ok r) ∧
    (w.disk.isFile input = true →
      (b.options.backup = true → ∃ d, w.disk.copy input (input ++ ".backup") = .ok d) →
        (¬ (NullFree name ∧ (b.codecs name).isSome = true) → (∃ bytes, w.disk.read input = .ok bytes) →
          ∃ e, b.encoding = .error e ∧ (b.processFile input output language w).1 = .error e) ∧
        (language.display = none → (∃ text, b.textAt w.disk input = .ok text ∧ text ≠ "") →
          (b.processFile input output language w).1 = .error (.value .tooManyDigits))) := by
  obtain ⟨out, hout⟩ := b.exists_outputOf hsuffix input output
  obtain ⟨hint, hhint, hdisplay⟩ := b.exists_hintFor hhints input language
  have hsettled : w.disk.isFile input = true →
      Settled input (b.straight input out hint w) (b.processFile input output language w) :=
    fun hfile => settled_processFile hfile hout hhint
  rw [← exists_encoding_iff hencoding]
  refine ⟨fun hfile => b.processFile_of_not_isFile hfile output language,
    fun hfile => ⟨out, hint, hout, hhint, hsettled hfile⟩, ?_, fun hfile hbackup => ⟨?_, ?_⟩⟩
  · intro hknown hfree houtput hlanguage
    cases hfile : w.disk.isFile input with
    | false =>
        obtain ⟨text, hprocess⟩ := b.processFile_of_not_isFile hfile output language
        rw [hprocess]
        exact ⟨_, rfl⟩
    | true =>
        have hinput := hdisk.of_isFile hfile
        have hnull : NullFree out := by
          cases output with
          | none => exact nullFree_outputPath hsuffix hfree hinput hout
          | some path =>
              obtain rfl := Except.ok.inj hout
              exact houtput path rfl
        exact (hsettled hfile).exists_result
          (straight_failsWith hknown hinput hnull (hdisplay.not.mpr hlanguage) w)
  · rintro hunknown ⟨bytes, hread⟩
    cases he : b.encoding with
    | ok codec => exact absurd ⟨codec, he⟩ hunknown
    | error e =>
        have hfailed : b.redaction w.disk w.state input hint = .error e := by
          rw [redaction, textAt_of_encoding he hread]
          rfl
        exact ⟨e, rfl, (hsettled hfile).eq_error (straight_of_redaction hfailed hfile hbackup out)
          (entered?_of_encoding he)⟩
  · rintro hlanguage ⟨text, htext, hne⟩
    have hfailed : b.redaction w.disk w.state input hint = .error (.value .tooManyDigits) := by
      rw [redaction, htext]
      exact b.redactor.redact_of_display ⟨text, rfl, hne⟩ (hdisplay.mpr hlanguage) b.parser w.state
    exact (hsettled hfile).eq_error (straight_of_redaction hfailed hfile hbackup out) rfl

/-- There is a file in the way of the folder for the output. -/
theorem processFile_captured_sample :
    ∃ r, (sample.processFile "a.js" (some "a.js/o.js") .null (sampleWorld [])).1 = .ok r ∧
      r.success = false ∧ r.errors = ["Error processing file: [Errno 17] File exists: 'a.js'"] := by
  have hhints : sample.options.endingHints =
      .map (([] : List (String × String)).map fun e => (.text e.1, .text e.2)) := rfl
  have hdisk : (sampleWorld []).disk.NullFree := by decide
  obtain ⟨r, hr⟩ : ∃ r,
      (sample.processFile "a.js" (some "a.js/o.js") .null (sampleWorld [])).1 = .ok r := by
    refine (processFile_captured rfl rfl hhints hdisk).2.2.1 (by decide +kernel) (by decide)
      (fun path hpath => ?_) (by decide)
    obtain rfl := Option.some.inj hpath
    decide
  have herrors : (sample.processFile "a.js" (some "a.js/o.js") .null (sampleWorld [])).1.toOption.any
      (fun r => r.success = false ∧
        r.errors = ["Error processing file: [Errno 17] File exists: 'a.js'"]) = true := by
    decide +kernel
  rw [hr] at herrors
  exact ⟨r, hr, of_decide_eq_true herrors⟩

def bogus : Batch Nat :=
  { sample with options := { sample.options with backup := false, encoding := .text "bogus" } }

/-- An encoding that is not known is not told in the result. -/
theorem processFile_escapes :
    (sampleWorld []).disk.isFile "a.js" = true ∧
      (bogus.processFile "a.js" (some "o.js") .null (sampleWorld [])).1 = .error .unknownEncoding := by
  have hfile : (sampleWorld []).disk.isFile "a.js" = true := by decide +kernel
  have hread : (sampleWorld []).disk.read "a.js" = .ok (Text.encode "a=b.#a") := by decide +kernel
  have hencoding : bogus.encoding = .error .unknownEncoding := rfl
  have hhint : bogus.hintFor "a.js" .null = .ok .null := rfl
  have hfailed : bogus.redaction (sampleWorld []).disk 0 "a.js" .null = .error .unknownEncoding := by
    rw [redaction, textAt_of_encoding hencoding hread]
    rfl
  refine ⟨hfile, (settled_processFile hfile rfl hhint).eq_error ?_ rfl⟩
  exact straight_of_redaction hfailed hfile (fun hbackup => Bool.noConfusion hbackup) _

end Batch

end Pseudonym
