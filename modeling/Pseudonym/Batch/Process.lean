import Pseudonym.Batch.World
import Pseudonym.Files.Pattern
import Pseudonym.Redactor
import Pseudonym.Report.Result
import Pseudonym.Text.Codec
import Pseudonym.Text.Lines

namespace Pseudonym

open Report (FileResult MappingReport)
open Files (Disk Path)
open Batch (Work)

/-- How files are gone about. -/
structure FileOptions where
  writeMapping : Bool := true
  backup : Bool := false
  encoding : Value := .text "utf-8"
  outputSuffix : Value := .text "_redacted"
  patterns : Value
  endingHints : Value
  deriving Inhabited

namespace FileOptions

def defaultPatterns : List String := ["*.js", "*.mjs", "*.cjs", "*.jsx", "*.ts", "*.tsx"]

/-- The options in a section of the settings. -/
def ofSection (settings : Value) : Except Error FileOptions := do
  let writeMapping ← Settings.entry settings "write_mapping" (.bool true)
  let backup ← Settings.entry settings "backup_original" (.bool false)
  let encoding ← Settings.entry settings "encoding" (.text "utf-8")
  let outputSuffix ← Settings.entry settings "output_suffix" (.text "_redacted")
  let patterns ← Settings.entry settings "file_patterns" .null
  let endingHints ← Settings.entry settings "extension_hints" .null
  pure {
    writeMapping := writeMapping.truthy, backup := backup.truthy, encoding, outputSuffix,
    patterns := if patterns.truthy then patterns else .list (defaultPatterns.map .text),
    endingHints := endingHints.orEmpty }

def ofSettings (settings : Value) : Except Error FileOptions := do
  ofSection (← Settings.entry settings "processing" (.map []))

end FileOptions

/-- The first hint for the ending of a path. Case does not matter. -/
def hintForPath (path : String) (hints : Value) : Except Error Value := do
  let ending := Text.lower (Path.ofText path).suffix
  let rec search : List (Key × Value) → Except Error Value
    | [] => .ok .null
    | (.text e, hint) :: rest => if Text.lower e = ending then .ok hint else search rest
    | _ :: _ => .error .noSuchEntry
  search (← Settings.entries hints.orEmpty)

/-- Goes about files with a redactor. -/
structure Batch (σ : Type) where
  redactor : Redactor σ
  parser : Parser
  codecs : Text.Codecs
  options : FileOptions
  /-- When it is, for reports. -/
  timestamp : String

namespace Batch

variable {σ : Type} (b : Batch σ)

/-- The output path for an input, unless the suffix has no text. -/
def outputPath (input : String) : Except Error String := do
  let path := Path.ofText input
  let suffix ← b.options.outputSuffix.asText
  return (path.parent.join (path.stem ++ suffix ++ path.suffix)).text

def mappingPath (output : String) : String :=
  let path := Path.ofText output
  (path.parent.join (path.name ++ ".mapping.json")).text

/-- The name of the encoding of files, if it is given one. -/
def encodingName : Except Error (Option String) :=
  match b.options.encoding with
  | .null => .ok none
  | .text name =>
      if name.toList.contains '\x00' then .error (.value .nullCharacter) else .ok (some name)
  | _ => .error .wrongKind

/-- The codec of a name. Without a name it is the usual one. -/
def codec : Option String → Except Error Text.Codec
  | none => .ok .utf8
  | some name =>
      match b.codecs name with
      | some codec => .ok codec
      | none => .error .unknownEncoding

/-- The redaction of a text, always with its mapping. -/
def redactText (text hint : Value) : Work σ Redaction := fun w =>
  let reply := b.redactor.redact b.parser { text, hint, includeMapping := some true } w.state
  (reply.result, { w with state := reply.state }.noted reply.log)

/-- Reads a text. What cannot be a name is found out before the file is opened, and what is not known
as one after that. -/
def readText (path : String) : Work σ String := do
  let name ← Work.ofResult b.encodingName
  let bytes ← Work.ask (·.read path)
  let codec ← Work.ofResult (b.codec name)
  let text ← Work.ofResult ((codec.decode bytes).mapError .decode)
  return String.ofList (Text.unifyLineEnds text)

/-- Writes a text. The file is there, and empty, even if the text cannot be encoded. -/
def writeText (path text : String) : Work σ Unit := do
  let folder := Files.folderOf path
  if !folder.isEmpty then Work.makeFolders folder
  let name ← Work.ofResult b.encodingName
  Work.change (·.write path [])
  let codec ← Work.ofResult (b.codec name)
  let bytes ← Work.ofResult ((codec.encode text).mapError .encode)
  Work.change (·.write path bytes)

def backUp (path : String) : Work σ Unit := do
  let copy := path ++ ".backup"
  Work.change (·.copy path copy)
  Work.tell ("Backup created: " ++ copy)

def writeReport (path source : String) (r : Redaction) : Work σ Unit := do
  let report : MappingReport :=
    { source, profile := r.profile, strategy := b.redactor.supply.strategy, timestamp := b.timestamp,
      mapping := r.mapping.getD [] }
  Work.change (·.write path (Text.encode (Report.json 0 report.toValue)))

/-- Enters a failure in a result, unless it is not one of the file. -/
def enter (r : FileResult) (e : Error) : Work σ FileResult := do
  let text ← match e with
    | .request _ => pure e.message
    | .file .nullByte => throw e
    | .file _ | .decode _ | .encode _ | .unwritable _ => pure ("Error processing file: " ++ e.message)
    | e => throw e
  Work.tell ("Error: " ++ e.message)
  return r.withError text

/-- Goes on after some work, or enters its failure in the result so far. -/
def attempt {α : Type} (r : FileResult) (work : Work σ α) (next : α → Work σ FileResult) :
    Work σ FileResult := do
  match ← Work.outcome work with
  | .ok a => next a
  | .error e => enter r e

/-- What is found out about a file before it is touched. -/
def announce (input : String) : Work σ Unit := do
  let size ← Work.ask (·.size input)
  Work.tell ("Reading file: " ++ input ++ " (" ++ Report.fileSize (Float.ofNat size) ++ ")")

/-- The last steps for a file: the output and its report. -/
def writeOutput (r : FileResult) (output : String) (redaction : Redaction) : Work σ FileResult := do
  Work.tell ("Writing output: " ++ output)
  attempt r (b.writeText output redaction.code) fun _ => do
    let r := { r with outputPath := some output }
    if b.options.writeMapping then
      let path := mappingPath output
      attempt r (b.writeReport path r.inputPath redaction) fun _ => do
        Work.tell ("Mapping written: " ++ path)
        return { r with mappingPath := some path, success := true }
    else return { r with success := true }

def redactFile (r : FileResult) (input output : String) : Work σ FileResult :=
  attempt r (if b.options.backup then backUp input else pure ()) fun _ =>
  attempt r (announce input) fun _ =>
  attempt r (b.readText input) fun text =>
  attempt r (b.redactText (.text text) r.language) fun redaction => do
    let distinct := (redaction.mapping.getD []).length
    let r := { r with replaced := redaction.replaced, distinct := distinct }
    Work.tell ("Replaced " ++ toString redaction.replaced ++ " identifier occurrences (" ++
      toString distinct ++ " distinct)")
    let r := if redaction.replaced = 0 then r.withWarning "No identifiers found" else r
    b.writeOutput r output redaction

/-- Redacts a file. Without an output path one is made up; without a hint the ending gives one. -/
def processFile (input : String) (output : Option String) (language : Value) :
    Work σ FileResult := do
  let r : FileResult := { success := false, inputPath := input }
  let d ← Work.disk
  if !d.isThere input then return r.withError ("Input file not found: " ++ input)
  if !d.isFile input then return r.withError ("Input path is not a file: " ++ input)
  let output ← match output with
    | some path => pure path
    | none => Work.ofResult (b.outputPath input)
  let language ← match language with
    | .null => Work.ofResult (hintForPath input b.options.endingHints)
    | hint => pure hint
  b.redactFile { r with language } input output

def findFiles (folder : String) (recursive : Bool) : Work σ (List Path) := do
  let patterns ← Work.ofResult b.options.patterns.items
  Work.ofResult ((← Work.disk).findFiles folder recursive patterns)

/-- Redacts the files of a list, each to its place below another folder. -/
def processAll (root : Path) (output : String) (language : Value) :
    List Path → Work σ (List FileResult)
  | [] => return []
  | path :: rest => do
      let below : Path := ⟨"", path.parts.drop root.parts.length⟩
      let r ← b.processFile path.text (some (Files.joinText output below.text)) language
      return r :: (← processAll root output language rest)

/-- Redacts the files of a folder that have the shape of a pattern. -/
def processFolder (folder : String) (output : Option String) (recursive : Bool) (language : Value) :
    Work σ (List FileResult) := do
  let output := output.getD (Files.dropSlashes folder ++ "_redacted")
  Work.makeFolders output
  let files ← b.findFiles folder recursive
  Work.tell ("Found " ++ toString files.length ++ " files to process")
  let results ← b.processAll (Path.ofText folder) output language files
  Work.tell ("\nProcessing complete: " ++ toString (results.filter (·.success)).length ++ "/" ++
    toString results.length ++ " files successful")
  return results

end Batch

end Pseudonym
