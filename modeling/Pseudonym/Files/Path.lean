namespace Pseudonym.Files

/-- The parts of a text between slashes. -/
def splitSlashes (path : String) : List String := (path.toList.splitOn '/').map String.ofList

/-- A path without empty parts and without single dots. -/
structure Path where
  /-- Slashes in front of a path that does not start from here. -/
  root : String := ""
  parts : List String
  deriving DecidableEq, Repr, Inhabited

namespace Path

def rootOf (path : String) : String :=
  match path.toList with
  | '/' :: '/' :: '/' :: _ => "/"
  | '/' :: '/' :: _ => "//"
  | '/' :: _ => "/"
  | _ => ""

def ofText (path : String) : Path :=
  ⟨rootOf path, (splitSlashes path).filter fun p => p ≠ "" && p ≠ "."⟩

def text (p : Path) : String :=
  if p.root = "" && p.parts.isEmpty then "." else p.root ++ String.intercalate "/" p.parts

/-- The last part. -/
def name (p : Path) : String := p.parts.getLastD ""

def parent (p : Path) : Path := { p with parts := p.parts.dropLast }

/-- The path with more parts at its end. -/
def below (p : Path) (parts : List String) : Path := { p with parts := p.parts ++ parts }

/-- What follows below a path. A path with a root stands for itself. -/
def join (p : Path) (child : String) : Path :=
  let c := ofText child
  if c.root = "" then p.below c.parts else c

/-- A name up to its last dot, and from there on. A dot at either end does not count. -/
def splitName (name : String) : String × String :=
  let cs := name.toList
  let ending := (cs.reverse.takeWhile (· ≠ '.')).reverse
  let stem := cs.take (cs.length - ending.length - 1)
  if ending.isEmpty || ending.length = cs.length || stem.isEmpty then (name, "")
  else (String.ofList stem, String.ofList ('.' :: ending))

def stem (p : Path) : String := (splitName p.name).1

def suffix (p : Path) : String := (splitName p.name).2

end Path

/-- A path in two: up to the last slash, and after it. The first keeps its slashes only if it has
nothing else. -/
def splitLast (path : String) : String × String :=
  let cs := path.toList
  let tail := (cs.reverse.takeWhile (· ≠ '/')).reverse
  let head := cs.take (cs.length - tail.length)
  let head := if head.all (· = '/') then head else (head.reverse.dropWhile (· = '/')).reverse
  (String.ofList head, String.ofList tail)

def folderOf (path : String) : String := (splitLast path).1

/-- A path without the slashes at its end. -/
def dropSlashes (path : String) : String :=
  String.ofList (path.toList.reverse.dropWhile (· = '/')).reverse

/-- A path from the top of the disk, where parts that go up have been taken out with those above. -/
def absolute (here : List String) (path : String) : String :=
  let isFull := path.toList.head? = some '/'
  let parts := ((if isFull then [] else here) ++ splitSlashes path).foldl (fun done part =>
    if part = "" || part = "." then done else if part = ".." then done.dropLast else done ++ [part]) []
  (if isFull then Path.rootOf path else "/") ++ String.intercalate "/" parts

/-- Puts one path below another. -/
def joinText (folder path : String) : String :=
  if path.toList.head? = some '/' then path
  else if folder.isEmpty || folder.toList.getLast? = some '/' then folder ++ path
  else folder ++ "/" ++ path

end Pseudonym.Files
