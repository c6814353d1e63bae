import Pseudonym.Error
import Pseudonym.Value

namespace Pseudonym.Yaml

open Number (Double)

inductive Tag where
  | null
  | bool
  | int
  | float
  | text
  | date
  | merge
  | default
  | sequence
  | mapping
  | unknown
  deriving DecidableEq, Repr, Inhabited

namespace Tag

def space : String := "tag:yaml.org,2002:"

def known : List (String × Tag) :=
  [("null", .null), ("bool", .bool), ("int", .int), ("float", .float), ("str", .text),
    ("timestamp", .date), ("merge", .merge), ("value", .default), ("seq", .sequence),
    ("map", .mapping)]

def ofUri (uri : String) : Tag :=
  ((known.map fun (name, t) => (space ++ name, t)).lookup uri).getD .unknown

end Tag

def isUnderscored (c : Char) : Bool := c.isDigit || c = '_'

/-- A text without the sign in front. -/
def unsigned : List Char → List Char
  | '-' :: cs => cs
  | '+' :: cs => cs
  | cs => cs

/-- Digits with underscores, the first of them a digit, and what follows. -/
def dropNumber? : List Char → Option (List Char)
  | c :: cs => if c.isDigit then some (cs.dropWhile isUnderscored) else none
  | [] => none

/-- Nothing, or an exponent with its sign. -/
def isExponent : List Char → Bool
  | [] => true
  | e :: sign :: ds =>
      (e = 'e' || e = 'E') && (sign = '-' || sign = '+') && !ds.isEmpty && ds.all Char.isDigit
  | _ => false

/-- Parts of sixty after colons, at least one, and what follows. -/
def dropSixties? (afterOne : Bool) : List Char → Option (List Char)
  | ':' :: a :: b :: cs =>
      if a.isDigit && b.isDigit then
        if a ≤ '5' then dropSixties? true cs else none
      else if a.isDigit then dropSixties? true (b :: cs)
      else none
  | [':', a] => if a.isDigit then some [] else none
  | [':'] => none
  | cs => if afterOne then some cs else none

def isFloat (cs : List Char) : Bool :=
  let u := unsigned cs
  let fraction (cs : List Char) : Bool :=
    match cs with
    | '.' :: rest => isExponent (rest.dropWhile isUnderscored)
    | _ => false
  let sixties (cs : List Char) : Bool :=
    match dropSixties? false cs with
    | some ('.' :: rest) => rest.all isUnderscored
    | _ => false
  let whole := match dropNumber? u with
    | some rest => fraction rest || sixties rest
    | none => false
  let pointFirst := match cs with
    | '.' :: rest => (dropNumber? rest).any isExponent
    | _ => false
  whole || pointFirst || [".inf", ".Inf", ".INF"].contains (String.ofList u) ||
    [".nan", ".NaN", ".NAN"].contains (String.ofList cs)

def isInt (cs : List Char) : Bool :=
  let all (p : Char → Bool) (cs : List Char) : Bool :=
    !cs.isEmpty && cs.all fun c => p c || c = '_'
  match unsigned cs with
  | ['0'] => true
  | '0' :: 'b' :: rest => all (fun c => c = '0' || c = '1') rest
  | '0' :: 'x' :: rest => all (fun c => c.isDigit || ('a' ≤ c && c ≤ 'f') || ('A' ≤ c && c ≤ 'F')) rest
  | '0' :: rest => all (fun c => '0' ≤ c && c ≤ '7') rest
  | c :: rest =>
      c.isDigit && (rest.all isUnderscored ||
        (dropSixties? false (rest.dropWhile isUnderscored)).any List.isEmpty)
  | [] => false

/-- One or two digits, and what follows. -/
def takeShort? : List Char → Option (List Char × List Char)
  | a :: b :: cs =>
      if a.isDigit then if b.isDigit then some ([a, b], cs) else some ([a], b :: cs) else none
  | [a] => if a.isDigit then some ([a], []) else none
  | [] => none

def takeDigits? (n : Nat) (cs : List Char) : Option (List Char × List Char) :=
  let ds := cs.take n
  if ds.length = n && ds.all Char.isDigit then some (ds, cs.drop n) else none

def dropChar? (c : Char) : List Char → Option (List Char)
  | d :: cs => if c = d then some cs else none
  | [] => none

def natOf (ds : List Char) : Nat := ds.foldl (fun n d => 10 * n + (d.toNat - '0'.toNat)) 0

/-- How far a clock is ahead, in minutes. -/
abbrev Zone := Option Int

structure Clock where
  hour : Nat
  minute : Nat
  second : Nat
  /-- In millionths of a second. -/
  fraction : Nat
  zone : Zone

/-- A day, and a time of that day if one is given. -/
structure Moment where
  year : Nat
  month : Nat
  day : Nat
  clock : Option Clock := none

def zone? (cs : List Char) : Option Zone :=
  match cs.dropWhile fun c => c = ' ' || c = '\t' with
  | [] => if cs.isEmpty then some none else none
  | ['Z'] => some (some 0)
  | sign :: rest =>
      if sign = '-' || sign = '+' then do
        let (h, rest) ← takeShort? rest
        let m ← match rest with
          | [] => some 0
          | _ => do
              let (m, rest) ← takeDigits? 2 (← dropChar? ':' rest)
              if rest.isEmpty then some (natOf m) else none
        let minutes : Int := natOf h * 60 + m
        some (some (if sign = '-' then -minutes else minutes))
      else none

def millionths (ds : List Char) : Nat :=
  let six := ds.take 6
  natOf (six ++ List.replicate (6 - six.length) '0')

def clock? (cs : List Char) : Option Clock := do
  let cs ← match cs with
    | 'T' :: cs => some cs
    | 't' :: cs => some cs
    | c :: cs =>
        if c = ' ' || c = '\t' then some (cs.dropWhile fun c => c = ' ' || c = '\t') else none
    | [] => none
  let (hour, cs) ← takeShort? cs
  let (minute, cs) ← takeDigits? 2 (← dropChar? ':' cs)
  let (second, cs) ← takeDigits? 2 (← dropChar? ':' cs)
  let (fraction, cs) := match cs with
    | '.' :: cs => (cs.takeWhile Char.isDigit, cs.dropWhile Char.isDigit)
    | cs => ([], cs)
  let zone ← zone? cs
  some ⟨natOf hour, natOf minute, natOf second, millionths fraction, zone⟩

/-- A day of four, two and two digits, or a moment, where month and day may be shorter. -/
def moment? (strict : Bool) (cs : List Char) : Option Moment := do
  let (year, cs) ← takeDigits? 4 cs
  let (month, cs) ← takeShort? (← dropChar? '-' cs)
  let (day, cs) ← takeShort? (← dropChar? '-' cs)
  let m : Moment := { year := natOf year, month := natOf month, day := natOf day }
  match cs with
  | [] => if strict && (month.length ≠ 2 || day.length ≠ 2) then none else some m
  | cs => some { m with clock := some (← clock? cs) }

def boolWords : List String :=
  ["yes", "Yes", "YES", "no", "No", "NO", "true", "True", "TRUE", "false", "False", "FALSE", "on",
    "On", "ON", "off", "Off", "OFF"]

def plainTag (text : String) : Tag :=
  let cs := text.toList
  if ["", "~", "null", "Null", "NULL"].contains text then .null
  else if boolWords.contains text then .bool
  else if text = "<<" then .merge
  else if text = "=" then .default
  else if isFloat cs then .float
  else if isInt cs then .int
  else if (moment? true cs).isSome then .date
  else .text

def isLeap (year : Nat) : Bool := year % 4 = 0 && (year % 100 ≠ 0 || year % 400 = 0)

def daysIn (year month : Nat) : Nat :=
  if month = 2 then if isLeap year then 29 else 28
  else if [4, 6, 9, 11].contains month then 30
  else 31

def padded (width n : Nat) : String :=
  let ds := Nat.toDigits 10 n
  String.ofList (List.replicate (width - ds.length) '0' ++ ds)

def Zone.text : Zone → String
  | none => ""
  | some minutes =>
      (if minutes < 0 then "-" else "+") ++ padded 2 (minutes.natAbs / 60) ++ ":" ++
        padded 2 (minutes.natAbs % 60)

def Clock.text (c : Clock) : String :=
  "T" ++ padded 2 c.hour ++ ":" ++ padded 2 c.minute ++ ":" ++ padded 2 c.second ++
    (if c.fraction = 0 then "" else "." ++ padded 6 c.fraction) ++ c.zone.text

/-- The first thing that is wrong with a moment. -/
def Moment.fault? (m : Moment) : Option String :=
  if m.year = 0 then some "year 0 is out of range"
  else if m.month = 0 || m.month > 12 then some "month must be in 1..12"
  else if m.day = 0 || m.day > daysIn m.year m.month then some "day is out of range for month"
  else
    match m.clock with
    | none => none
    | some c =>
        if c.hour > 23 then some "hour must be in 0..23"
        else if c.minute > 59 then some "minute must be in 0..59"
        else if c.second > 59 then some "second must be in 0..59"
        else none

def Moment.value (m : Moment) : Except Error Key :=
  match m.fault? with
  | some text => .error (.value (.date text))
  | none =>
      .ok (.date (padded 4 m.year ++ "-" ++ padded 2 m.month ++ "-" ++ padded 2 m.day ++
        (m.clock.map Clock.text).getD ""))

/-- Digits of a base, at least one. -/
def digitsIn? (base : Nat) (cs : List Char) : Option Nat :=
  let value (c : Char) : Option Nat :=
    let n := if 'a' ≤ c && c ≤ 'z' then some (c.toNat - 'a'.toNat + 10)
      else if 'A' ≤ c && c ≤ 'Z' then some (c.toNat - 'A'.toNat + 10)
      else Text.digitValue? c
    n.filter (· < base)
  if cs.isEmpty then none
  else (cs.mapM value).map fun ds => ds.foldl (fun n d => base * n + d) 0

def intIn (base : Nat) (cs : List Char) : Except Error Int :=
  match digitsIn? base cs with
  | some n => .ok n
  | none => .error (.value (.integerIn base (String.ofList cs)))

def sixties (digits : List Int) : Int := digits.foldl (fun n d => 60 * n + d) 0

def intValue (text : String) : Except Error Key := do
  let cs := text.toList.filter (· ≠ '_')
  if cs.isEmpty then .error .outOfRange
  let sign : Int := if cs.head? = some '-' then -1 else 1
  let body := unsigned cs
  let decimal (cs : List Char) : Except Error Int :=
    (Text.parseInteger (String.ofList cs)).mapError fun f => .value (.integer f)
  let n ← match body with
    | ['0'] => pure 0
    | '0' :: 'b' :: rest => intIn 2 rest
    | '0' :: 'x' :: rest => intIn 16 rest
    | '0' :: 'o' :: rest => intIn 8 rest
    | '0' :: rest => intIn 8 ('0' :: rest)
    | [] => .error .outOfRange
    | body =>
        if body.contains ':' then do
          pure (sixties (← (body.splitOn ':').mapM decimal))
        else decimal body
  pure (.int (sign * n))

/-- A decimal number: digits, a point among them, and an exponent. -/
def decimal? (cs : List Char) : Option Float :=
  let cs := Text.stripChars cs
  let (negative, body) := match cs with
    | '-' :: rest => (true, rest)
    | '+' :: rest => (false, rest)
    | cs => (false, cs)
  let word := String.ofList (body.map Char.toLower)
  let size : Option Float :=
    if word = "inf" || word = "infinity" then some (1.0 / 0.0)
    else if word = "nan" then some (0.0 / 0.0)
    else
      let whole := body.takeWhile Char.isDigit
      let rest := body.dropWhile Char.isDigit
      let (fraction, rest) := match rest with
        | '.' :: rest => (rest.takeWhile Char.isDigit, rest.dropWhile Char.isDigit)
        | rest => ([], rest)
      let exponent : Option Int := match rest with
        | [] => some 0
        | e :: rest =>
            if e = 'e' || e = 'E' then
              let ds := unsigned rest
              if !ds.isEmpty && ds.all Char.isDigit then
                some (if rest.head? = some '-' then -(natOf ds : Int) else natOf ds)
              else none
            else none
      if whole.isEmpty && fraction.isEmpty then none
      else exponent.map fun e =>
        let scale : Int := e - fraction.length
        Float.ofScientific (natOf (whole ++ fraction)) (scale < 0) scale.natAbs
  size.map fun x => if negative then -x else x

def floatPart (cs : List Char) : Except Error Float :=
  match decimal? cs with
  | some x => .ok x
  | none => .error (.value (.float (String.ofList cs)))

def floatValue (text : String) : Except Error Key := do
  let cs := (text.toList.filter (· ≠ '_')).map Char.toLower
  if cs.isEmpty then .error .outOfRange
  let sign : Float := if cs.head? = some '-' then -1.0 else 1.0
  let body := unsigned cs
  let x ← if body = ".inf".toList then pure (1.0 / 0.0)
    else if body = ".nan".toList then pure (0.0 / 0.0)
    else if body.contains ':' then do
      let digits ← (body.splitOn ':').mapM floatPart
      let (x, _) := digits.foldr (fun d (x, base) => (x + d * base, base * 60.0)) (0.0, 1.0)
      pure x
    else floatPart body
  pure (.float (Double.ofFloat (sign * x)))

def boolValue (text : String) : Except Error Key :=
  let word := text.toList.map Char.toLower
  if ["yes", "true", "on"].any (·.toList = word) then .ok (.bool true)
  else if ["no", "false", "off"].any (·.toList = word) then .ok (.bool false)
  else .error .missingKey

def dateValue (text : String) : Except Error Key :=
  match moment? false text.toList with
  | some m => m.value
  | none => .error .noSuchEntry

end Pseudonym.Yaml
