import Pseudonym.Document
import Pseudonym.Files.Disk
import Pseudonym.Log
import Pseudonym.Settings.Defaults
import Pseudonym.Settings.Entry
import Pseudonym.Settings.Merge

namespace Pseudonym.Settings

open Files (Disk)

/-- Where the defaults come from. -/
inductive Base where
  | builtin
  | file (path : String)
  deriving DecidableEq, Repr, Inhabited

structure Sources where
  base : Base := .builtin
  user : Option String := none
  environment : List (String × String) := []
  overrides : Value := .map []
  deriving Inhabited

/-- Why a file gives no settings. -/
inductive Unread where
  | fault (f : FileFault)
  | malformed (text : String)
  | rejected (e : Error)

def Unread.message : Unread → String
  | fault f => f.message
  | malformed text => text
  | rejected e => e.message

/-- Settings that say nothing. -/
def nothing (source : Nat) : Document := .map [source] []

/-- The settings of a file. A file that says nothing counts as an empty mapping. -/
def readFile (read : Document.Reader) (d : Disk) (source : Nat) (path : String) :
    Except Unread Document := do
  let bytes ← (d.read path).mapError .fault
  let document ← (read source bytes).mapError fun
    | .malformed text => .malformed text
    | .rejected e => .rejected e
  pure (if document.value.truthy then document else nothing source)

def note (level : Level) (text : String) : Note := ⟨level, .settings, text⟩

def readBase (read : Document.Reader) (d : Disk) : Base → Except Error Document × Log
  | .builtin => (.ok (.ofValue [0] defaults), [])
  | .file path =>
      match readFile read d 0 path with
      | .ok v => (.ok v, [])
      | .error (.fault (.notFound _)) =>
          (.ok (nothing 0), [note .warning ("Configuration file not found: " ++ path)])
      | .error (.fault f) => (.error (.file f), [])
      | .error (.malformed text) =>
          (.ok (nothing 0), [note .error ("Error parsing YAML configuration " ++ path ++ ": " ++ text)])
      | .error (.rejected e) => (.error e, [])

/-- Settings of the user. A file that cannot be used is noted and counts as empty. -/
def readUser (read : Document.Reader) (d : Disk) (path : String) : Except Error Document × Log :=
  if d.isThere path then
    match readFile read d 1 path with
    | .ok v => (.ok v, [])
    | .error (.rejected e) => (.error e, [])
    | .error u =>
        (.ok (nothing 1), [note .error ("Error loading configuration from " ++ path ++ ": " ++ u.message)])
  else (.ok (nothing 1), [note .warning ("User configuration file not found: " ++ path)])

/-- Lays settings over others, where both have to be mappings. -/
def overlay (base : Document) : Document → Except Error Document
  | .map _ [] => .ok base
  | .map _ entries =>
      match base with
      | .map origin _ => .ok (layEntries base origin entries)
      | _ => .error .wrongKind
  | _ => .error .noSuchEntry

/-- Sets an entry of a section. The section is made if it is missing. -/
def setEntry (settings : Document) (source : Nat) (sectionName name : String) (v : Key) :
    Except Error Document :=
  match settings with
  | .map origin entries =>
      match Value.find? entries (.text sectionName) with
      | some (.scalar _) | some (.list _) => .error .wrongKind
      | _ => .ok (lay settings origin (.text sectionName) (.map [source] [(.text name, .scalar v)]))
  | _ => .error .noSuchEntry

/-- The value of a variable that is set and not empty. -/
def setting? (environment : List (String × String)) (name : String) : Option String :=
  (environment.lookup name).filter fun s => !s.isEmpty

def applyText (environment : List (String × String)) (source : Nat)
    (variableName sectionName name : String) (settings : Document) : Except Error Document :=
  match setting? environment variableName with
  | some s => setEntry settings source sectionName name (.text s)
  | none => .ok settings

def applySeed (environment : List (String × String)) (source : Nat) (settings : Document) :
    Except Error Document × Log :=
  match setting? environment "CODE_REDACT_SEED" with
  | none => (.ok settings, [])
  | some s =>
      match Text.parseInteger s with
      | .ok n => (setEntry settings source "substitutes" "seed" (.int n), [])
      | .error _ =>
          (.ok settings, [note .warning ("Ignoring non-integer CODE_REDACT_SEED: " ++ Text.quoted s)])

/-- A computation that takes notes and may fail. -/
abbrev Noting := ExceptT Error (StateM Log)

def Noting.lift {α : Type} (r : Except Error α × Log) : Noting α := fun log => (r.1, log ++ r.2)

def Noting.run {α : Type} (m : Noting α) : Except Error α × Log := m []

/-- Each source has a number, so that no mapping of one is taken for one of another. -/
def loadNoting (read : Document.Reader) (d : Disk) (s : Sources) : Noting Document := do
  let settings ← Noting.lift (readBase read d s.base)
  let settings ← match s.user.filter fun p => !p.isEmpty with
    | some path => do
        let update ← Noting.lift (readUser read d path)
        Noting.lift (overlay settings update, [])
    | none => pure settings
  let settings ← Noting.lift
    (applyText s.environment 2 "CODE_REDACT_LOG_LEVEL" "logging" "level" settings, [])
  let settings ← Noting.lift (applySeed s.environment 3 settings)
  let settings ← Noting.lift
    (applyText s.environment 4 "CODE_REDACT_UNKNOWN_HINT" "grammar" "unknown_hint" settings, [])
  if s.overrides.truthy then Noting.lift (overlay settings (.ofValue [5] s.overrides), [])
  else pure settings

/-- The settings that all sources make up, and what is to be noted. -/
def load (read : Document.Reader) (d : Disk) (s : Sources) : Except Error Value × Log :=
  let (settings, log) := (loadNoting read d s).run
  (settings.map Document.value, log)

/-- Looks up an entry by the names of the sections and itself, with dots between them. -/
def getPath (settings : Value) (path : String) : Option Value :=
  (path.toList.splitOn '.').foldl (fun v name => v.bind (·.get? (String.ofList name))) (some settings)

/-- How many sections there are. -/
def sectionCount : Value → Except Error Nat
  | .map es => .ok es.length
  | .list items => .ok items.length
  | .text s => .ok s.length
  | _ => .error .wrongKind

def description (settings : Value) : Except Error String :=
  (sectionCount settings).map fun n => "ConfigManager(loaded=" ++ toString n ++ " sections)"

end Pseudonym.Settings
