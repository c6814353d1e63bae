import Pseudonym.CommandLine.Logging

namespace Pseudonym.CommandLine

/-- A place in a format that is filled in: `%(name)` with how it is written. -/
structure Field where
  name : String
  isLeft : Bool
  /-- Asks for a width or a precision that nothing gives. -/
  isStarred : Bool
  width : Nat
  precision : Option Nat
  conversion : Char
  deriving DecidableEq, Repr, Inhabited

namespace Field

def isWordChar (c : Char) : Bool := c.isAlphanum || c = '_' || c.toNat > 127

def natOf (ds : List Char) : Nat := ds.foldl (fun n d => 10 * n + (d.toNat - '0'.toNat)) 0

/-- A star or digits at the start of a text, and what follows. -/
def readSize : List Char → Option (Option Nat) × List Char
  | '*' :: rest => (some none, rest)
  | cs =>
      match cs.takeWhile Char.isDigit with
      | [] => (none, cs)
      | ds => (some (some (natOf ds)), cs.dropWhile Char.isDigit)

/-- The field at the start of a text after a percent sign, and what follows it. -/
def read? : List Char → Option (Field × List Char)
  | '(' :: cs =>
      let name := cs.takeWhile isWordChar
      match cs.dropWhile isWordChar with
      | ')' :: cs =>
          let isFlag (c : Char) : Bool := "#0+ -".toList.contains c
          let flags := cs.takeWhile isFlag
          let (width, cs) := readSize (cs.dropWhile isFlag)
          let (precision, cs) := match cs with
            | '.' :: rest =>
                match readSize rest with
                | (none, _) => (none, '.' :: rest)
                | sized => sized
            | rest => (none, rest)
          match cs with
          | c :: rest =>
              if !name.isEmpty && "diouxefgcrsa%".toList.contains c.toLower then
                some (⟨String.ofList name, flags.contains '-', width = some none || precision = some none,
                  (width.getD none).getD 0, precision.getD none, c⟩, rest)
              else none
          | [] => none
      | _ => none
  | _ => none

/-- Whether a format has any field. -/
def existsIn : List Char → Bool
  | [] => false
  | c :: rest => (c = '%' && (read? rest).isSome) || existsIn rest

def fill (f : Field) (text : String) : List Char :=
  let cs := (if f.conversion = 'r' then Text.quoted text else text).toList
  let cs := (f.precision.map cs.take).getD cs
  let blanks := List.replicate (f.width - cs.length) ' '
  if f.isLeft then cs ++ blanks else blanks ++ cs

end Field

namespace Logging

/-- The upper case of a letter, where that is a plain one. -/
def upperChar (c : Char) : Char :=
  if c.toNat = 0x131 then 'I' else if c.toNat = 0x17f then 'S' else c.toUpper

def basicFormat : String := "%(levelname)s:%(name)s:%(message)s"

/-- The weight of a level by name. An unknown name stands for `INFO`, unless it names something else. -/
def threshold (name : String) : Except Error Nat :=
  match String.ofList (name.toList.map upperChar) with
  | "CRITICAL" | "FATAL" => .ok 50
  | "ERROR" => .ok 40
  | "WARNING" | "WARN" => .ok 30
  | "DEBUG" => .ok 10
  | "NOTSET" => .ok 0
  | "BASIC_FORMAT" => .error (.value (.other ("Unknown level: " ++ Text.quoted basicFormat)))
  | "_STYLES" => .error .wrongKind
  | _ => .ok 20

/-- What a field of a format stands for. -/
def fieldText (now : Report.Moment) (n : Note) : String → Option String
  | "name" => some n.topic.name
  | "levelname" => some n.level.name
  | "levelno" => some (toString n.level.weight)
  | "message" => some n.text
  | "asctime" => some now.logText
  | "threadName" => some "MainThread"
  | "processName" => some "MainProcess"
  | _ => none

/-- Fills in a format, unless a field of it cannot be. At most `fuel` characters are looked at. -/
def fillIn (now : Report.Moment) (n : Note) : Nat → List Char → Option (List Char)
  | 0, _ => some []
  | _ + 1, [] => some []
  | fuel + 1, '%' :: '%' :: rest => (fillIn now n fuel rest).map ('%' :: ·)
  | fuel + 1, c :: rest =>
      match if c = '%' then Field.read? rest else none with
      | some (f, rest) =>
          if f.isStarred then none
          else (fillIn now n fuel rest).map (f.fill ((fieldText now n f.name).getD "") ++ ·)
      | none => (fillIn now n fuel rest).map (c :: ·)

/-- The line for a note, if it weighs enough. -/
def line? (now : Report.Moment) (least : Nat) (format : String) (n : Note) : Option String :=
  if least ≤ n.level.weight then
    (fillIn now n (format.length + 1) format.toList).map fun cs => String.ofList cs ++ "\n"
  else none

/-- Formats with `%` and levels by name. -/
def standard (now : Report.Moment) : Logging where
  path here
    | .text path => .ok (Files.absolute here path)
    | _ => .error .wrongKind
  lines level
    | .text format =>
        if Field.existsIn format.toList then (threshold level).map fun least => line? now least format
        else .error (.value (.logFormat format))
    | _ => .error .wrongKind

end Logging

end Pseudonym.CommandLine
