import Pseudonym.Number.Double
import Pseudonym.Text.Integer

namespace Pseudonym

open Number (Double)

/-- What an entry of a mapping may be called. -/
inductive Key where
  | null
  | bool (b : Bool)
  | int (n : Int)
  | float (x : Double)
  | text (s : String)
  | date (s : String)
  | other (written : String) (isSet : Bool)
  deriving DecidableEq, Repr, Inhabited

inductive Value where
  | null
  | bool (b : Bool)
  | int (n : Int)
  | float (x : Double)
  | text (s : String)
  /-- A day, or a moment, in the order year, month, day. -/
  | date (s : String)
  /-- Something else that settings may hold, by how it is written and whether it counts as set. -/
  | other (written : String) (isSet : Bool)
  | list (items : List Value)
  | map (entries : List (Key × Value))
  deriving Repr, Inhabited

namespace Key

def toValue : Key → Value
  | null => .null
  | bool b => .bool b
  | int n => .int n
  | float x => .float x
  | text s => .text s
  | date s => .date s
  | other written isSet => .other written isSet

/-- The number that a key stands for, if it is a whole one. -/
def number? : Key → Option Int
  | bool b => some (if b then 1 else 0)
  | int n => some n
  | float x =>
      match x.truncate? with
      | some n => if (Double.ofFloat (Float.ofInt n)).bits = x.bits || (n = 0 && x.mantissa = 0) then some n else none
      | none => none
  | _ => none

/-- Keys are the same if they are equal or stand for the same number. -/
def same (a b : Key) : Bool :=
  a == b ||
    match a.number?, b.number? with
    | some m, some n => m == n
    | _, _ => false

end Key

namespace Value

/-- Nothing, nought, false and what is empty do not count as set. -/
def truthy : Value → Bool
  | null => false
  | bool b => b
  | int n => n != 0
  | float x => x.isNaN || x.isInfinite || x.mantissa != 0
  | text s => !s.isEmpty
  | date _ => true
  | other _ isSet => isSet
  | list items => !items.isEmpty
  | map entries => !entries.isEmpty

def isMap : Value → Bool
  | map _ => true
  | _ => false

/-- The entry of a list of entries, by key. -/
def find? {α : Type} (entries : List (Key × α)) (key : Key) : Option α :=
  (entries.find? fun e => e.1.same key).map (·.2)

/-- Sets an entry. A key that is there keeps its place. -/
def insert {α : Type} (entries : List (Key × α)) (key : Key) (v : α) : List (Key × α) :=
  match entries with
  | [] => [(key, v)]
  | (k, old) :: rest => if k.same key then (k, v) :: rest else (k, old) :: insert rest key v

def get? : Value → String → Option Value
  | map entries, name => find? entries (.text name)
  | _, _ => none

/-- A mapping with text keys. -/
def ofPairs (pairs : List (String × Value)) : Value := .map (pairs.map fun (k, v) => (.text k, v))

/-- The whole numbers of a date, in order. -/
def dateParts (s : String) : List String :=
  let parts := (s.toList.splitBy fun a b => a.isDigit && b.isDigit).filter (·.all Char.isDigit)
  parts.map fun p => toString ((String.ofList p).toNat?.getD 0)

def quotedKey : Key → Option String
  | .null => some "None"
  | .bool b => some (if b then "True" else "False")
  | .int n => Text.decimal? n
  | .float x => some x.text
  | .text s => some (Text.quoted s)
  | .date s =>
      some ((if s.length > 10 then "datetime.datetime(" else "datetime.date(") ++
        String.intercalate ", " (dateParts s) ++ ")")
  | .other written _ => some written

mutual

/-- A value as it is written inside another one: text stands in quotes. A number with too many digits
cannot be written. -/
def quoted : Value → Option String
  | null => some "None"
  | bool b => some (if b then "True" else "False")
  | int n => Text.decimal? n
  | float x => some x.text
  | text s => some (Text.quoted s)
  | date s => quotedKey (.date s)
  | other written _ => some written
  | list items => (quotedAll items).map fun ss => "[" ++ String.intercalate ", " ss ++ "]"
  | map entries => (quotedEntries entries).map fun ss => "\x7b" ++ String.intercalate ", " ss ++ "\x7d"

def quotedAll : List Value → Option (List String)
  | [] => some []
  | v :: rest => (quoted v).bind fun s => (quotedAll rest).map (s :: ·)

def quotedEntries : List (Key × Value) → Option (List String)
  | [] => some []
  | (k, v) :: rest =>
      (quotedKey k).bind fun key => (quoted v).bind fun s =>
        (quotedEntries rest).map ((key ++ ": " ++ s) :: ·)

end

/-- A value as text by itself. -/
def display : Value → Option String
  | text s => some s
  | date s => some (s.map fun c => if c = 'T' then ' ' else c)
  | v => quoted v

end Value

end Pseudonym
