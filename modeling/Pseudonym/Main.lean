import Pseudonym.CommandLine.LogFormat
import Pseudonym.CommandLine.Run
import Pseudonym.Language.Parser
import Pseudonym.Names.Lottery
import Pseudonym.Text.Encoding
import Pseudonym.Yaml.Document

namespace Pseudonym.Main

open Files (Disk Place Content)

def placeOf (path : String) : Place := (Files.Path.ofText path).parts

def pathOf (place : Place) : String := "/" ++ String.intercalate "/" place

/-- Copies a folder or file into a disk value. Below a folder only the named depth is copied. -/
partial def load (d : Disk) (place : Place) (deep : Bool) : IO Disk := do
  let path := (← IO.currentDir) / pathOf place
  if ← path.isDir then
    let d := if place.isEmpty then d else d.set place .folder
    let mut d := d
    if deep then
      for e in ← path.readDir do
        d ← load d (place ++ [e.fileName]) deep
    return d
  else if ← path.pathExists then
    return d.set place (.file (← IO.FS.readBinFile path).toList)
  else
    return d

/-- Copies the folders above a place, and what stands beside it. -/
def loadAround (d : Disk) (place : Place) : IO Disk := do
  let mut d := d
  for n in List.range place.length do
    d ← load d (place.take n) false
  let folder := (← IO.currentDir) / pathOf place.dropLast
  if ← folder.isDir then
    for e in ← folder.readDir do
      d ← load d (place.dropLast ++ [e.fileName]) false
  return d

/-- The part of the disk that arguments speak of. -/
def loadNamed (here : Place) (arguments : List String) : IO Disk := do
  let mut d ← loadAround { here } here
  for argument in arguments do
    let path := Files.Path.ofText argument
    let place := if path.root.isEmpty then here ++ path.parts else path.parts
    d ← loadAround d place
    d ← load d place true
  return d

/-- Writes what is new or has changed. -/
def store (before after : Disk) : IO Unit := do
  for (place, c) in after.entries do
    if before.get? place ≠ some c then
      match c with
      | .folder => IO.FS.createDirAll (pathOf place)
      | .file bytes => IO.FS.writeBinFile (pathOf place) ⟨bytes.toArray⟩
      | _ => pure ()

partial def readAll (input : IO.FS.Stream) (done : ByteArray) : IO ByteArray := do
  let chunk ← input.read 65536
  if chunk.isEmpty then return done
  readAll input (done ++ chunk)

/-- What time it is, as a new file says. -/
def now : IO Report.Moment := do
  let (_, path) ← IO.FS.createTempFile
  let modified := (← path.metadata).modified
  IO.FS.removeFile path
  return Report.Moment.ofSeconds modified.sec.toNat (modified.nsec.toNat / 1000)

def environmentNames : List String :=
  ["CODE_REDACT_LOG_LEVEL", "CODE_REDACT_SEED", "CODE_REDACT_UNKNOWN_HINT"]

def environment : IO (List (String × String)) := do
  let mut found := []
  for name in environmentNames do
    if let some value ← IO.getEnv name then
      found := found ++ [(name, value)]
  return found

def runProgram (arguments : List String) : IO UInt32 := do
  let here := placeOf (← IO.currentDir).toString
  let disk ← loadNamed here arguments
  let piped ← if arguments.contains "-" then readAll (← IO.getStdin) .empty else pure .empty
  let now ← now
  let done := CommandLine.run
    { arguments, environment := ← environment, piped := .bytes piped.toList, now,
      parser := Language.parser, reader := Yaml.reader, codecs := Text.Encoding.codecs,
      words := WordSource.byLot (← IO.rand 0 (Nat.pow 2 31 - 1)), logging := .standard now } disk
  store disk done.disk
  IO.print done.out
  IO.eprint done.err
  match done.exit with
  | .ok status => return status.toUInt32
  | .error e =>
      IO.eprintln e.message
      return 1

end Pseudonym.Main

def main (arguments : List String) : IO UInt32 := Pseudonym.Main.runProgram arguments
