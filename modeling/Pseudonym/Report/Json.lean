import Pseudonym.Value

namespace Pseudonym.Report

open Number (Double)

def escapeChar (c : Char) : List Char :=
  if c = '"' then ['\\', '"']
  else if c = '\\' then ['\\', '\\']
  else if c = '\n' then ['\\', 'n']
  else if c = '\r' then ['\\', 'r']
  else if c = '\t' then ['\\', 't']
  else if c.toNat = 8 then ['\\', 'b']
  else if c.toNat = 12 then ['\\', 'f']
  else if c.toNat < 0x20 then '\\' :: 'u' :: Text.hex 4 c.toNat
  else [c]

def jsonText (s : String) : String := "\"" ++ String.ofList (s.toList.flatMap escapeChar) ++ "\""

def jsonFloat (x : Double) : String :=
  if x.isNaN then "NaN"
  else if x.isInfinite then if x.isNegative then "-Infinity" else "Infinity"
  else x.text

def jsonKey : Key → String
  | .null => jsonText "null"
  | .bool b => jsonText (if b then "true" else "false")
  | .int n => jsonText (toString n)
  | .float x => jsonText (jsonFloat x)
  | .text s => jsonText s
  | .date s => jsonText s
  | .other written _ => jsonText written

/-- A new line with two blanks for each level. -/
def newLine (level : Nat) : String := "\n" ++ String.ofList (List.replicate (2 * level) ' ')

/-- Items between brackets, each on a line of its own. -/
def bracketed (opening closing : String) (level : Nat) (items : List String) : String :=
  if items.isEmpty then opening ++ closing
  else
    opening ++ newLine (level + 1) ++ String.intercalate ("," ++ newLine (level + 1)) items ++
      newLine level ++ closing

mutual

def json (level : Nat) : Value → String
  | .null => "null"
  | .bool b => if b then "true" else "false"
  | .int n => toString n
  | .float x => jsonFloat x
  | .text s => jsonText s
  | .date s => jsonText s
  | .other written _ => jsonText written
  | .list items => bracketed "[" "]" level (jsonItems (level + 1) items)
  | .map entries => bracketed "\x7b" "\x7d" level (jsonEntries (level + 1) entries)

def jsonItems (level : Nat) : List Value → List String
  | [] => []
  | v :: rest => json level v :: jsonItems level rest

def jsonEntries (level : Nat) : List (Key × Value) → List String
  | [] => []
  | (k, v) :: rest => (jsonKey k ++ ": " ++ json level v) :: jsonEntries level rest

end

end Pseudonym.Report
