import Pseudonym.Error
import Pseudonym.Value

namespace Pseudonym

/-- What tells mappings apart: the number of the source, and the way to the mapping in it. -/
abbrev Origin := List Nat

/-- A value whose mappings have origins. Mappings of one origin are the same mapping. -/
inductive Document where
  | scalar (v : Key)
  | list (items : List Document)
  | map (origin : Origin) (entries : List (Key × Document))
  deriving Inhabited

namespace Document

mutual

def value : Document → Value
  | scalar v => v.toValue
  | list items => .list (values items)
  | map _ entries => .map (entryValues entries)

def values : List Document → List Value
  | [] => []
  | d :: rest => value d :: values rest

def entryValues : List (Key × Document) → List (Key × Value)
  | [] => []
  | (key, d) :: rest => (key, value d) :: entryValues rest

end

mutual

/-- The entries of the mapping of an origin, if it is there. -/
def entries? (origin : Origin) : Document → Option (List (Key × Document))
  | scalar _ => none
  | list items => entriesIn? origin items
  | map here entries => if here = origin then some entries else entriesUnder? origin entries

def entriesIn? (origin : Origin) : List Document → Option (List (Key × Document))
  | [] => none
  | d :: rest => (entries? origin d).or (entriesIn? origin rest)

def entriesUnder? (origin : Origin) : List (Key × Document) → Option (List (Key × Document))
  | [] => none
  | (_, d) :: rest => (entries? origin d).or (entriesUnder? origin rest)

end

mutual

/-- Sets an entry of the mapping of an origin, wherever it stands. -/
def write (origin : Origin) (key : Key) (new : Document) : Document → Document
  | scalar v => scalar v
  | list items => list (writeIn origin key new items)
  | map here entries =>
      let entries := writeUnder origin key new entries
      map here (if here = origin then Value.insert entries key new else entries)

def writeIn (origin : Origin) (key : Key) (new : Document) : List Document → List Document
  | [] => []
  | d :: rest => write origin key new d :: writeIn origin key new rest

def writeUnder (origin : Origin) (key : Key) (new : Document) :
    List (Key × Document) → List (Key × Document)
  | [] => []
  | (k, d) :: rest => (k, write origin key new d) :: writeUnder origin key new rest

end

mutual

/-- A value where no mapping stands twice. -/
def ofValue (origin : Origin) : Value → Document
  | .null => scalar .null
  | .bool b => scalar (.bool b)
  | .int n => scalar (.int n)
  | .float x => scalar (.float x)
  | .text s => scalar (.text s)
  | .date s => scalar (.date s)
  | .other written isSet => scalar (.other written isSet)
  | .list items => list (ofValues origin 0 items)
  | .map entries => map origin (ofEntries origin 0 entries)

/-- The items of a list, from a number on. -/
def ofValues (origin : Origin) (n : Nat) : List Value → List Document
  | [] => []
  | v :: rest => ofValue (origin ++ [n]) v :: ofValues origin (n + 1) rest

def ofEntries (origin : Origin) (n : Nat) : List (Key × Value) → List (Key × Document)
  | [] => []
  | (key, v) :: rest => (key, ofValue (origin ++ [n]) v) :: ofEntries origin (n + 1) rest

end

/-- Why a file has no document: it is not well formed, or something in it is not allowed. -/
inductive Trouble where
  | malformed (text : String)
  | rejected (e : Error)
  deriving DecidableEq, Repr, Inhabited

/-- A way to read documents. The number is that of the source. -/
abbrev Reader := Nat → Text.Bytes → Except Trouble Document

end Document

end Pseudonym
