import Pseudonym.Error
import Pseudonym.Value

namespace Pseudonym

namespace Value

/-- A value that does not count as set is taken for an empty mapping. -/
def orEmpty (v : Value) : Value := if v.truthy then v else .map []

/-- The parts of a value that can be gone through. -/
def items : Value → Except Error (List Value)
  | .list items => .ok items
  | .map entries => .ok (entries.map fun e => e.1.toValue)
  | .text s => .ok (s.toList.map fun c => .text (String.singleton c))
  | _ => .error .wrongKind

/-- A value as text by itself, unless a number in it has too many digits. -/
def asText (v : Value) : Except Error String :=
  match v.display with
  | some s => .ok s
  | none => .error (.value .tooManyDigits)

def toInteger : Value → Except Error Int
  | .bool b => .ok (if b then 1 else 0)
  | .int n => .ok n
  | .float x =>
      match x.truncate? with
      | some n => .ok n
      | none =>
          if x.isNaN then .error (.value .notANumber)
          else .error (.tooLarge "cannot convert float infinity to integer")
  | .text s => (Text.parseInteger s).mapError fun f => .value (.integer f)
  | _ => .error .wrongKind

end Value

namespace Settings

/-- The entries of a mapping. Anything else has none to ask for. -/
def entries : Value → Except Error (List (Key × Value))
  | .map entries => .ok entries
  | _ => .error .noSuchEntry

def lookup (settings : Value) (name : String) : Except Error (Option Value) :=
  (entries settings).map fun es => Value.find? es (.text name)

/-- An entry, or what stands for it where there is none. -/
def entry (settings : Value) (name : String) (absent : Value) : Except Error Value :=
  (lookup settings name).map fun v => v.getD absent

/-- An entry, or what stands for it where there is none or an empty one. -/
def option (settings : Value) (name : String) (absent : Value) : Except Error Value :=
  (lookup settings name).map fun
    | some .null => absent
    | some v => v
    | none => absent

end Settings

end Pseudonym
