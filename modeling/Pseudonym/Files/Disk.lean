import Pseudonym.Error
import Pseudonym.Files.Path

namespace Pseudonym.Files

open Text (Bytes)

/-- Where something is, from the top of the disk. -/
abbrev Place := List String

/-- What stands at a place. -/
inductive Content where
  | folder
  | file (bytes : Bytes)
  /-- One more name of the file at another place. -/
  | sameAs (place : Place)
  /-- Leads on by a path from the folder where it stands. -/
  | link (target : String)
  /-- Takes what is written to it and keeps nothing. -/
  | device
  deriving DecidableEq, Repr, Inhabited

inductive Access where
  | reading
  | writing
  deriving DecidableEq, Repr, Inhabited

structure Disk where
  /-- The folder that paths without a root start from. -/
  here : Place := []
  entries : List (Place × Content) := []
  /-- What is not allowed. -/
  refused : List (Place × Access) := []
  deriving DecidableEq, Repr, Inhabited

/-- What is in the way of following a path. -/
inductive Obstacle where
  | missing
  | notAFolder
  | tooManyLinks
  deriving DecidableEq, Repr, Inhabited

def Obstacle.fault (path : String) : Obstacle → FileFault
  | missing => .notFound path
  | notAFolder => .notADirectory path
  | tooManyLinks => .tooManyLinks path

namespace Disk

def get? (d : Disk) (place : Place) : Option Content :=
  if place.isEmpty then some .folder else d.entries.lookup place

/-- Puts something at a place, instead of what is there. -/
def set (d : Disk) (place : Place) (c : Content) : Disk :=
  if (d.entries.lookup place).isSome then
    { d with entries := d.entries.map fun e => if e.1 = place then (place, c) else e }
  else { d with entries := d.entries ++ [(place, c)] }

/-- The parts of a path. A slash at the end asks for a folder. -/
def partsOf (path : String) : List String :=
  let parts := splitSlashes path
  parts.filter (· ≠ "") ++ (if parts.length > 1 && parts.getLast? = some "" then ["."] else [])

/-- Where a part of a path leads from a place, before it is known what stands there. -/
def step (place : Place) (part : String) : Place :=
  if part = "." then place else if part = ".." then place.dropLast else place ++ [part]

/-- Where a path starts from that is met or given at a place. -/
def startFrom (place : Place) (path : String) : Place :=
  if path.toList.head? = some '/' then [] else place

/-- Follows the parts of a path with a number of links left. All parts but the last have to be folders.
At a link it goes on as it is told. -/
def walk (d : Disk) (left : Nat) (onward : Place → List String → Except Obstacle (Place × Nat)) :
    Place → List String → Except Obstacle (Place × Nat)
  | place, [] => .ok (place, left)
  | place, part :: rest =>
      match d.get? place with
      | none => .error .missing
      | some .folder =>
          match d.get? (step place part) with
          | some (.link target) => onward (startFrom place target) (partsOf target ++ rest)
          | some (.sameAs first) => walk d left onward first rest
          | _ => walk d left onward (step place part) rest
      | some _ => .error .notAFolder

/-- Follows the parts of a path through so many links. Gives the place and the links that are left. -/
def follow (d : Disk) : Nat → Place → List String → Except Obstacle (Place × Nat)
  | 0 => d.walk 0 fun _ _ => .error .tooManyLinks
  | left + 1 => d.walk (left + 1) (d.follow left)

/-- Through how many links a path may lead. -/
def linkLimit : Nat := 40

/-- The place of a path, which may be vacant. Links are followed, and a file is found at its first
name. -/
def locate (d : Disk) (path : String) : Except Obstacle Place :=
  if path.isEmpty then .error .missing
  else (d.follow linkLimit (startFrom d.here path) (partsOf path)).map (·.1)

/-- The place where the last part of a path stands, whatever it may be. -/
def entryOf (d : Disk) (path : String) : Except Obstacle Place :=
  if path.isEmpty then .error .missing
  else do
    let (place, _) ← d.follow linkLimit (startFrom d.here path) (partsOf path).dropLast
    match d.get? place with
    | none => .error .missing
    | some .folder => .ok (step place ((partsOf path).getLastD "."))
    | some _ => .error .notAFolder

/-- What a path leads to. -/
def find? (d : Disk) (path : String) : Option Content :=
  match d.locate path with
  | .ok place => d.get? place
  | .error _ => none

def isThere (d : Disk) (path : String) : Bool := (d.find? path).isSome

def isFolder (d : Disk) (path : String) : Bool := d.find? path == some .folder

def isFile (d : Disk) (path : String) : Bool :=
  match d.find? path with
  | some (.file _) => true
  | _ => false

/-- The size of a file. -/
def size (d : Disk) (path : String) : Except FileFault Nat :=
  match d.locate path with
  | .error o => .error (o.fault path)
  | .ok place =>
      match d.get? place with
      | none => .error (.notFound path)
      | some (.file bytes) => .ok bytes.length
      | some _ => .ok 0

def read (d : Disk) (path : String) : Except FileFault Bytes :=
  match d.locate path with
  | .error o => .error (o.fault path)
  | .ok place =>
      if (place, .reading) ∈ d.refused then .error (.denied path) else
      match d.get? place with
      | some .folder => .error (.isADirectory path)
      | some (.file bytes) => .ok bytes
      | some .device => .ok []
      | _ => .error (.notFound path)

/-- A path without the slashes at its end, unless it has nothing else. -/
def withoutSlashes (path : String) : String :=
  if path.toList.all (· = '/') then path else dropSlashes path

/-- Writes a file, which is made if it is missing. -/
def write (d : Disk) (path : String) (bytes : Bytes) : Except FileFault Disk :=
  if path.toList.contains '\x00' then .error .nullByte
  else if path.toList.getLast? = some '/' then
    match d.entryOf (withoutSlashes path) with
    | .error o => .error (o.fault path)
    | .ok _ => .error (.isADirectory path)
  else
    match d.locate path with
    | .error o => .error (o.fault path)
    | .ok place =>
        if (place, .writing) ∈ d.refused then .error (.denied path) else
        match d.get? place with
        | none | some (.file _) => .ok (d.set place (.file bytes))
        | some .device => .ok d
        | some .folder => .error (.isADirectory path)
        | _ => .error (.notFound path)

/-- Writes at the end of a file. -/
def append (d : Disk) (path : String) (bytes : Bytes) : Except FileFault Disk :=
  match d.find? path with
  | some (.file old) => d.write path (old ++ bytes)
  | _ => d.write path bytes

def makeFolder (d : Disk) (path : String) : Except FileFault Disk :=
  if path.toList.contains '\x00' then .error .nullByte else
  match d.entryOf (withoutSlashes path) with
  | .error o => .error (o.fault path)
  | .ok place =>
      match d.get? place with
      | some _ => .error (.alreadyThere path)
      | none => if (place, .writing) ∈ d.refused then .error (.denied path) else .ok (d.set place .folder)

/-- Makes a folder unless it is there. -/
def ensureFolder (d : Disk) (path : String) : Disk × Option FileFault :=
  match d.makeFolder path with
  | .ok d => (d, none)
  | .error f => (d, if d.isFolder path then none else some f)

/-- Makes a folder and those above it that are missing, with at most so many levels. What was made
before a failure stays. -/
def ensureFoldersUpTo (d : Disk) (path : String) : Nat → Disk × Option FileFault
  | 0 => d.ensureFolder path
  | levels + 1 =>
      let (head, tail) := splitLast path
      let (head, tail) := if tail.isEmpty then splitLast head else (head, tail)
      if head.isEmpty || tail.isEmpty || d.isThere head then d.ensureFolder path
      else
        match ensureFoldersUpTo d head levels with
        | (d, none) | (d, some (.alreadyThere _)) =>
            if tail = "." then (d, none) else d.ensureFolder path
        | (d, some f) => (d, some f)

def ensureFolders (d : Disk) (path : String) : Disk × Option FileFault :=
  d.ensureFoldersUpTo path path.length

/-- Whether two paths lead to one thing. -/
def isSame (d : Disk) (path other : String) : Bool :=
  match d.locate path, d.locate other with
  | .ok p, .ok q => p = q && (d.get? p).isSome
  | _, _ => false

/-- Copies a file. A copy to a folder goes into it. -/
def copy (d : Disk) (source target : String) : Except FileFault Disk := do
  let target := if d.isFolder target then joinText target (splitLast source).2 else target
  if d.isSame source target then .error (.sameFile source target)
  d.write target (← d.read source)

/-- What is in a folder, by name. -/
def children (d : Disk) (place : Place) : List String :=
  d.entries.filterMap fun (p, _) => if p.dropLast = place then p.getLast? else none

/-- The folders below a place, with their parts from there. The place itself comes first. -/
def foldersBelow (d : Disk) (place : Place) : List (List String) :=
  [] :: d.entries.filterMap fun (p, c) =>
    if c = .folder && place.isPrefixOf p && place.length < p.length then some (p.drop place.length)
    else none

end Disk

end Pseudonym.Files
