import Pseudonym.Files.Disk
import Pseudonym.Log

namespace Pseudonym.Batch

open Files (Disk)

/-- Something said, to the reader, to the operator, or to the log. -/
inductive Utterance where
  | out (text : String)
  | err (text : String)
  | note (n : Note)
  deriving DecidableEq, Repr, Inhabited

/-- How notes are written, those that are to be, and the file they go to. -/
structure Logger where
  line : Note → Option String
  file : Option String := none

/-- Writes notes to the log file, if there is one. -/
def Logger.write (logger : Logger) (notes : Log) (d : Disk) : Disk :=
  match logger.file with
  | some path => (d.append path (Text.encode (String.join (notes.filterMap logger.line)))).toOption.getD d
  | none => d

structure World (σ : Type) where
  disk : Disk
  state : σ
  said : List Utterance := []
  logger : Option Logger := none

namespace World

variable {σ τ : Type}

def withState (w : World σ) (state : τ) : World τ := { w with state }

/-- Takes notes, which go to the log file at once. -/
def noted (w : World σ) (notes : Log) : World σ :=
  { w with
    said := w.said ++ notes.map .note
    disk := match w.logger with
      | some logger => logger.write notes w.disk
      | none => w.disk }

end World

/-- Work that changes the world and may fail. What was changed before a failure stays. -/
abbrev Work (σ : Type) := ExceptT Error (StateM (World σ))

namespace Work

variable {σ α β : Type}

def ofResult : Except Error α → Work σ α
  | .ok a => pure a
  | .error e => throw e

def say (u : Utterance) : Work σ Unit := modify fun w => { w with said := w.said ++ [u] }

/-- A line for the reader. -/
def tell (line : String) : Work σ Unit := say (.out (line ++ "\n"))

/-- A line for the operator. -/
def warn (line : String) : Work σ Unit := say (.err (line ++ "\n"))

def log (notes : Log) : Work σ Unit := modify (·.noted notes)

def disk : Work σ Disk := return (← get).disk

/-- Asks something of the disk. -/
def ask (f : Disk → Except FileFault α) : Work σ α := do
  ofResult ((f (← disk)).mapError .file)

/-- Changes the disk, unless that cannot be done. -/
def change (f : Disk → Except FileFault Disk) : Work σ Unit := do
  let d ← ask f
  modify fun w => { w with disk := d }

/-- Makes the folders of a path. Those that could be made stay even if others could not. -/
def makeFolders (path : String) : Work σ Unit := fun w =>
  let (d, fault) := w.disk.ensureFolders path
  (match fault with
    | none => .ok ()
    | some f => .error (.file f), { w with disk := d })

/-- The outcome of some work as a value. -/
def outcome (work : Work σ α) : Work σ (Except Error α) := fun w =>
  let (result, w) := work w
  (.ok result, w)

end Work

end Pseudonym.Batch
