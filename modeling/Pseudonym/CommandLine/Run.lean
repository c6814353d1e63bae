import Pseudonym.Batch.Process
import Pseudonym.CommandLine.Arguments
import Pseudonym.CommandLine.Help
import Pseudonym.CommandLine.Logging
import Pseudonym.Settings.Load

namespace Pseudonym.CommandLine

open Batch (Logger Work World Utterance)
open Files (Disk)

/-- What is piped in. -/
inductive Piped where
  | bytes (bs : Text.Bytes)
  | interrupted
  deriving DecidableEq, Repr, Inhabited

/-- What a run is given: by its caller, and by the parts it is put together with. -/
structure Invocation (σ : Type) where
  arguments : List String
  environment : List (String × String) := []
  piped : Piped := .bytes []
  now : Report.Moment := { year := 2000 }
  parser : Parser
  reader : Document.Reader
  codecs : Text.Codecs
  words : WordSource.Maker σ
  logging : Logging

/-- What a run comes to: its exit status, or the failure that it did not expect. -/
structure Finish where
  exit : Except Error Nat
  out : String
  err : String
  disk : Disk

inductive Exit where
  | success
  | failure
  | badRequest
  | interrupted
  deriving DecidableEq, Repr, Inhabited

def Exit.status : Exit → Nat
  | success => 0
  | failure => 1
  | badRequest => 2
  | interrupted => 130

def refuse {σ : Type} (line : String) : Work σ Bool := do
  Work.warn line
  return false

/-- Whether the input can be used as the arguments say. -/
def checkInput {σ : Type} (a : Arguments) : Work σ Bool := do
  if a.input = "-" then
    if a.folder then refuse "Error: --dir cannot be used with stdin input" else return true
  else
    let d ← Work.disk
    if !d.isThere a.input then refuse ("Error: Input path does not exist: " ++ a.input)
    else if a.folder && !d.isFolder a.input then
      refuse ("Error: --dir specified but input is not a directory: " ++ a.input)
    else if !a.folder && !d.isFile a.input then refuse ("Error: Input is not a file: " ++ a.input)
    else
      if a.recursive && !a.folder then
        Work.tell "Warning: --recursive ignored (only applies to --dir mode)"
      return true

variable {σ : Type}

/-- Where the settings of a run come from. -/
def Invocation.sources (i : Invocation σ) (a : Arguments) : Settings.Sources :=
  { user := a.config, environment := i.environment, overrides := a.overrides }

/-- The settings. Notes on them are shown as they are, if they are warnings or worse. -/
def loadSettings (i : Invocation σ) (a : Arguments) : Work Unit Value := do
  let (settings, notes) := Settings.load i.reader (← Work.disk) (i.sources a)
  for n in notes.atLeast .warning do
    Work.warn n.text
  Work.ofResult settings

/-- How notes are shown from now on. A log file is there at once, whatever follows. -/
def openLog (logging : Logging) (settings : Value) : Work Unit Unit := do
  let s ← Work.ofResult (LogSettings.ofSettings settings)
  let file ← match s.file with
    | some file => do
        let path ← Work.ofResult (logging.path (← Work.disk).here file)
        Work.change (·.append path [])
        pure (some path)
    | none => pure none
  let line ← Work.ofResult (logging.lines s.level s.format)
  modify fun w => { w with logger := some { line, file } }

/-- The file work that settings ask for, and where the supply of names starts. -/
def Invocation.batch (i : Invocation σ) (settings : Value) : Except Error (Batch σ × σ) := do
  let (redactor, start) ← Redactor.ofWords settings i.words
  let options ← FileOptions.ofSettings settings
  let timestamp := i.now.timestamp
  pure ({ redactor, parser := i.parser, codecs := i.codecs, options, timestamp }, start)

def hintOf (a : Arguments) : Value := (a.language.map Value.text).getD .null

/-- Whether a hint from the command line names a profile. -/
def checkLanguage (b : Batch σ) (a : Arguments) : Work σ Bool := do
  match a.language with
  | none => return true
  | some language =>
      let (profile, notes) := b.redactor.resolver.resolve (.text language)
      Work.log notes
      match profile with
      | .ok _ => return true
      | .error (.request e) => refuse ("Error: " ++ e.message ++ ": " ++ language)
      | .error e => throw e

def pipedText (bs : Text.Bytes) : Except Error String := do
  let cs ← (Text.decodeChars bs).mapError .decode
  pure (String.ofList (Text.unifyLineEnds cs))

/-- How many substitutes are shown unasked. -/
def previewLimit : Int := 10

def redactPiped (b : Batch σ) (a : Arguments) (bs : Text.Bytes) : Work σ Exit := do
  let text ← Work.ofResult (pipedText bs)
  match ← Work.outcome (b.redactText (.text text) (hintOf a)) with
  | .error (.request e) =>
      Work.warn ("Error: " ++ e.message)
      return if e.isBadRequest then .badRequest else .failure
  | .error e => throw e
  | .ok r =>
      Work.say (.out r.code)
      let mapping := r.mapping.getD []
      if a.mapping = some true then
        Work.warn (Report.json 0 (.map (Report.uniquePairs mapping)))
      else if a.verbose && !mapping.isEmpty then
        Work.warn (Report.mappingLines mapping (some previewLimit))
      return .success

/-- Redacts what is piped in, unless that is cut short. -/
def runPiped (b : Batch σ) (i : Invocation σ) (a : Arguments) : Work σ Exit :=
  match i.piped with
  | .bytes bs => redactPiped b a bs
  | .interrupted => do
      Work.warn "\nInterrupted by user"
      return .interrupted

/-- Tells what became of a file. -/
def tellResult (r : Report.FileResult) : Work σ Unit := do
  (Report.openingLines r).forM Work.tell
  let language ← Work.ofResult (if r.language.truthy then r.language.asText else .ok "default")
  (Report.resultLines r language).forM Work.tell

/-- Redacts the files that the arguments name. -/
def runFiles (b : Batch σ) (a : Arguments) : Work σ Exit := do
  let exit (ok : Bool) : Exit := if ok then .success else .failure
  if a.folder then
    let results ← b.processFolder a.input a.output a.recursive (hintOf a)
    (Report.summaryLines results).forM Work.tell
    return exit (results.all (·.success))
  else
    let r ← b.processFile a.input a.output (hintOf a)
    tellResult r
    return exit r.success

def runBatch (i : Invocation σ) (a : Arguments) (b : Batch σ) : Work σ Exit := do
  if !(← checkLanguage b a) then return .badRequest
  if a.input = "-" then runPiped b i a else runFiles b a

/-- The failure of a value that is not allowed, by what is told about it. -/
def valueFault? : Error → Option String
  | .value f => some f.message
  | .decode f => some f.message
  | .encode f => some f.message
  | .unwritable name => some (Error.unwritable name).message
  | .file .nullByte => some FileFault.nullByte.message
  | _ => none

/-- Settings that are not allowed end a run with a message. -/
def explain (work : Work σ Exit) : Work σ Exit := do
  match ← Work.outcome work with
  | .ok exit => return exit
  | .error e =>
      match valueFault? e with
      | some text =>
          Work.warn ("\nConfiguration error: " ++ text)
          return .failure
      | none => throw e

def outText (said : List Utterance) : String :=
  String.join (said.filterMap fun
    | .out s => some s
    | _ => none)

/-- What the operator sees. Notes are among it unless they go to a file. -/
def errText (logger : Option Logger) (said : List Utterance) : String :=
  String.join (said.filterMap fun
    | .err s => some s
    | .out _ => none
    | .note n => logger.bind fun l => if l.file.isNone then l.line n else none)

def finish (exit : Except Error Exit) (w : World σ) : Finish :=
  { exit := exit.map Exit.status, out := outText w.said, err := errText w.logger w.said, disk := w.disk }

/-- Carries out some work to the end. -/
def conclude (work : Work σ Exit) (w : World σ) : Finish :=
  let (exit, w) := explain work w
  finish exit w

/-- The settings. The log is open then. -/
def prepare (i : Invocation σ) (a : Arguments) : Work Unit Value := do
  let settings ← loadSettings i a
  openLog i.logging settings
  return settings

def runArguments (i : Invocation σ) (a : Arguments) (w : World Unit) : Finish :=
  match checkInput a w with
  | (.error e, w) => finish (.error e) w
  | (.ok false, w) => finish (.ok .badRequest) w
  | (.ok true, w) =>
      match prepare i a w with
      | (.error e, w) => conclude (throw e) w
      | (.ok settings, w) =>
          match i.batch settings with
          | .error e => conclude (throw e) w
          | .ok (b, start) => conclude (runBatch i a b) (w.withState start)

def run (i : Invocation σ) (disk : Disk) : Finish :=
  match Arguments.parse i.arguments with
  | .ok a => runArguments i a { disk, state := () }
  | .error .help => { exit := .ok 0, out := helpText, err := "", disk }
  | .error .version => { exit := .ok 0, out := versionText, err := "", disk }
  | .error (.fault f) =>
      { exit := .ok 2, out := "", err := usage ++ "code-redact: error: " ++ f.message ++ "\n", disk }

end Pseudonym.CommandLine
