import Pseudonym.Document
import Pseudonym.Text.Lines
import Pseudonym.Yaml.Node

namespace Pseudonym.Yaml

/-- Why a file has no value: it is not well formed, or one of its values is not allowed. -/
inductive Trouble where
  | malformed
  | rejected (e : Error)
  deriving DecidableEq, Repr, Inhabited

/-- A trouble with the level of the collection where it shows. Outer levels are looked at first. -/
abbrev Found := Option (Nat × Trouble)

def Found.first (a b : Found) : Found :=
  match a, b with
  | some x, some y => if y.1 < x.1 then some y else some x
  | some x, none => some x
  | none, b => b

def scalarValue (tag : Tag) (text : String) : Except Trouble Key :=
  let checked (v : Except Error Key) : Except Trouble Key := v.mapError .rejected
  match tag with
  | .null => .ok .null
  | .text => .ok (.text text)
  | .bool => checked (boolValue text)
  | .int => checked (intValue text)
  | .float => checked (floatValue text)
  | .date => checked (dateValue text)
  | .sequence | .mapping | .merge | .default | .unknown => .error .malformed

def keyOf : Document → Option Key
  | .scalar v => some v
  | .list _ => none
  | .map _ _ => none

/-- A mapping that is merged into another brings its own pairs with it. -/
abbrev Pairs := List (Node × Node)

mutual

/-- The pairs of a mapping, with those that it takes over from others in front. None if it takes
over from something that is no mapping. -/
def flatten : Node → Option Pairs
  | .mapping _ _ pairs => do
      let (merged, own) ← flattenPairs pairs
      some (merged ++ own)
  | _ => none

def flattenPairs : Pairs → Option (Pairs × Pairs)
  | [] => some ([], [])
  | (k, v) :: rest => do
      let here ← if k.tag = .merge then flattenSource v else some []
      let (merged, own) ← flattenPairs rest
      some (here ++ merged, if k.tag = .merge then own else (k, v) :: own)

def flattenSource : Node → Option Pairs
  | .mapping _ _ pairs => do
      let (merged, own) ← flattenPairs pairs
      some (merged ++ own)
  | .sequence _ items => flattenAll items
  | .scalar _ _ => none

/-- Of several mappings the first has the last word. -/
def flattenAll : List Node → Option Pairs
  | [] => some []
  | .mapping _ _ pairs :: rest => do
      let (merged, own) ← flattenPairs pairs
      let later ← flattenAll rest
      some (later ++ merged ++ own)
  | _ :: _ => none

end

/-- The node of a key. A lone equals sign is a text there. -/
def asKey : Node → Node
  | .scalar .default text => .scalar .text text
  | n => n

mutual

/-- The document of a node that stands in a collection of a level. -/
def build (source level : Nat) : Nat → Node → Document × Found
  | 0, _ => (.scalar .null, some (level, .malformed))
  | _ + 1, .scalar tag text =>
      if tag = .sequence || tag = .mapping then (.scalar .null, some (level + 1, .malformed))
      else
        match scalarValue tag text with
        | .ok v => (.scalar v, none)
        | .error t => (.scalar .null, some (level, t))
  | fuel + 1, .sequence tag items =>
      match tag with
      | .sequence =>
          let (ds, found) := buildItems source (level + 1) fuel items
          (.list ds, found)
      | .mapping => (.scalar .null, some (level + 1, .malformed))
      | _ => (.scalar .null, some (level, .malformed))
  | fuel + 1, .mapping tag place pairs =>
      match tag with
      | .mapping =>
          match flatten (.mapping tag place pairs) with
          | some pairs =>
              let (entries, found) := buildPairs source (level + 1) fuel [] pairs
              (.map [source, place] entries, found)
          | none => (.scalar .null, some (level + 1, .malformed))
      | .sequence => (.scalar .null, some (level + 1, .malformed))
      | _ => (.scalar .null, some (level, .malformed))

def buildItems (source level : Nat) : Nat → List Node → List Document × Found
  | 0, _ => ([], some (level, .malformed))
  | _ + 1, [] => ([], none)
  | fuel + 1, n :: rest =>
      let (d, found) := build source level fuel n
      let (ds, more) := buildItems source level fuel rest
      (d :: ds, found.first more)

def buildPairs (source level : Nat) :
    Nat → List (Key × Document) → Pairs → List (Key × Document) × Found
  | 0, done, _ => (done, some (level, .malformed))
  | _ + 1, done, [] => (done, none)
  | fuel + 1, done, (k, v) :: rest =>
      let (key, found) := build source level fuel (asKey k)
      let (d, inner) := build source level fuel v
      match keyOf key with
      | some key =>
          let (entries, more) := buildPairs source level fuel (Value.insert done key d) rest
          (entries, (found.first inner).first more)
      | none => (done, found.first (some (level, .malformed)))

end

mutual

/-- A bound on the steps that the document of a node takes. -/
def Node.extent : Node → Nat
  | .scalar _ _ => 1
  | .sequence _ items => extentAll items + 2
  | .mapping _ _ pairs => extentPairs pairs + 2

def Node.extentAll : List Node → Nat
  | [] => 1
  | n :: rest => Node.extent n + Node.extentAll rest + 1

def Node.extentPairs : List (Node × Node) → Nat
  | [] => 1
  | (k, v) :: rest => Node.extent k + Node.extent v + Node.extentPairs rest + 1

end

/-- The document of a text, with the number of the source. A text without one stands for nothing. -/
def read (source : Nat) (text : String) : Except Trouble Document :=
  match node? text.toList with
  | none => .error .malformed
  | some none => .ok (.scalar .null)
  | some (some n) =>
      match build source 0 (2 * n.extent + 2) n with
      | (d, none) => .ok d
      | (_, some (_, t)) => .error t

def reader : Document.Reader := fun source bytes => do
  let text ← (Text.decodeChars bytes).mapError fun f => .rejected (.decode f)
  (read source (String.ofList (Text.unifyLineEnds text))).mapError fun
    | .malformed => .malformed "invalid YAML"
    | .rejected e => .rejected e

end Pseudonym.Yaml
