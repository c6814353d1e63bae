import Pseudonym.Number.Double

namespace Pseudonym.Report

open Number (Double)

def sizeUnits : List String := ["B", "KB", "MB", "GB", "TB"]

/-- A size in the first unit that makes it less than 1024, with one place. -/
def sizeIn (x : Float) : List String → String
  | [] => (Double.ofFloat x).fixed 1 ++ " PB"
  | u :: units => if x < 1024.0 then (Double.ofFloat x).fixed 1 ++ " " ++ u else sizeIn (x / 1024.0) units

def fileSize (x : Float) : String := sizeIn x sizeUnits

/-- A moment of the calendar. -/
structure Moment where
  year : Nat
  month : Nat := 1
  day : Nat := 1
  hour : Nat := 0
  minute : Nat := 0
  second : Nat := 0
  /-- In millionths of a second. -/
  fraction : Nat := 0
  deriving DecidableEq, Repr, Inhabited

def padded (width n : Nat) : String :=
  let ds := Nat.toDigits 10 n
  String.ofList (List.replicate (width - ds.length) '0' ++ ds)

namespace Moment

def clockText (m : Moment) : String :=
  padded 2 m.hour ++ ":" ++ padded 2 m.minute ++ ":" ++ padded 2 m.second

def dateText (m : Moment) : String := padded 4 m.year ++ "-" ++ padded 2 m.month ++ "-" ++ padded 2 m.day

/-- The moment so many seconds after the start of 1970. Years are counted from March, so that the
leap day comes last. -/
def ofSeconds (seconds : Nat) (fraction : Nat) : Moment :=
  let days := seconds / 86400 + 719468
  let era := days / 146097
  let dayOfEra := days % 146097
  let yearOfEra := (dayOfEra - dayOfEra / 1460 + dayOfEra / 36524 - dayOfEra / 146096) / 365
  let dayOfYear := dayOfEra - (365 * yearOfEra + yearOfEra / 4 - yearOfEra / 100)
  let fromMarch := (5 * dayOfYear + 2) / 153
  let month := if fromMarch < 10 then fromMarch + 3 else fromMarch - 9
  let second := seconds % 86400
  { year := yearOfEra + era * 400 + (if month ≤ 2 then 1 else 0), month,
    day := dayOfYear - (153 * fromMarch + 2) / 5 + 1, hour := second / 3600,
    minute := second / 60 % 60, second := second % 60, fraction }

/-- A fraction is written only if there is one. -/
def timestamp (m : Moment) : String :=
  m.dateText ++ "T" ++ m.clockText ++
    (if m.fraction = 0 then "" else "." ++ padded 6 m.fraction) ++ "Z"

/-- As it stands in logs, to the thousandth of a second. -/
def logText (m : Moment) : String :=
  m.dateText ++ " " ++ m.clockText ++ "," ++ padded 3 (m.fraction / 1000)

end Moment

/-- The first elements of a list, or all but the last ones for a negative number. -/
def upTo {α : Type} (limit : Int) (xs : List α) : List α :=
  if limit < 0 then xs.take (xs.length - limit.natAbs) else xs.take limit.toNat

/-- One substitute a line. A limit cuts the list short and says how much is left out. -/
def mappingLines (mapping : List (String × String)) (limit : Option Int) : String :=
  let line := fun (p : String × String) => "  " ++ p.1 ++ " -> " ++ p.2
  let lines := match limit with
    | none => mapping.map line
    | some n =>
        (upTo n mapping).map line ++
          (if n < mapping.length then ["  ... and " ++ toString (mapping.length - n) ++ " more"] else [])
  String.intercalate "\n" lines

end Pseudonym.Report
