import Pseudonym.Names.Supply
import Pseudonym.Value

namespace Pseudonym

/-- Names with their substitutes, in the order in which the names were first seen. -/
structure Registry where
  pairs : List (String × String) := []
  deriving DecidableEq, Repr, Inhabited

namespace Registry

variable {σ : Type}

def find? (r : Registry) (name : String) : Option String := r.pairs.lookup name

def size (r : Registry) : Nat := r.pairs.length

/-- A name that can be replaced: a text that is not empty. -/
def usable? : Value → Option String
  | .text s => if s.isEmpty then none else some s
  | _ => none

/-- What is wrong with a name that cannot be replaced. -/
def unusable (name : Value) : ValueFault :=
  match name.quoted with
  | some written => .identifierName written
  | none => .tooManyDigits

/-- The substitute of a name. A name that is new takes the next one of the supply. -/
def substitute (r : Registry) (supply : Supply σ) (name : String) (state : σ) :
    Except Error String × Registry × σ :=
  match r.find? name with
  | some s => (.ok s, r, state)
  | none =>
      match supply.draw state with
      | (.ok s, state) => (.ok s, ⟨r.pairs ++ [(name, s)]⟩, state)
      | (.error e, state) => (.error e, r, state)

def resolve (r : Registry) (supply : Supply σ) (name : Value) (state : σ) :
    Except Error String × Registry × σ :=
  match usable? name with
  | some name => r.substitute supply name state
  | none => (.error (.value (unusable name)), r, state)

/-- Whether a value is a name of the registry. Lists and mappings cannot be asked for. -/
def contains (r : Registry) : Value → Except Error Bool
  | .text s => .ok (r.find? s).isSome
  | .list _ => .error .wrongKind
  | .map _ => .error .wrongKind
  | _ => .ok false

/-- The names and their substitutes as a mapping. -/
def toMap (r : Registry) : Value := .ofPairs (r.pairs.map fun p => (p.1, .text p.2))

def description (r : Registry) (supply : Supply σ) : String :=
  "IdentifierRegistry(names=" ++ toString r.size ++ ", strategy=" ++ supply.strategy ++ ")"

end Registry

end Pseudonym
