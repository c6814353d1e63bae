import Pseudonym.Text.Blank
import Pseudonym.Text.Digit
import Pseudonym.Text.Quoted

namespace Pseudonym.Text

inductive IntegerFault where
  | notANumber (text : String)
  | tooManyDigits (count : Nat)
  deriving DecidableEq, Repr, Inhabited

def IntegerFault.message : IntegerFault → String
  | notANumber text => "invalid literal for int() with base 10: " ++ quoted text
  | tooManyDigits count =>
      "Exceeds the limit (4300 digits) for integer string conversion: value has " ++ toString count ++
        " digits; use sys.set_int_max_str_digits() to increase the limit"

/-- The digits of a text, if it holds nothing else but single underscores between them. -/
def digits? (afterDigit : Bool) : List Char → Option (List Nat)
  | [] => if afterDigit then some [] else none
  | c :: cs =>
      if c = '_' then if afterDigit then digits? false cs else none
      else (digitValue? c).bind fun d => (digits? true cs).map (d :: ·)

/-- More digits than this are neither read nor written. -/
def digitLimit : Nat := 4300

/-- A number in decimal digits, if they are not too many. -/
def decimal? (n : Int) : Option String :=
  if digitLimit < (Nat.toDigits 10 n.natAbs).length then none else some (toString n)

def ofDigits (ds : List Nat) : Nat := ds.foldl (fun n d => 10 * n + d) 0

def parseInteger (text : String) : Except IntegerFault Int :=
  let (negative, body) := match stripChars text.toList with
    | '-' :: cs => (true, cs)
    | '+' :: cs => (false, cs)
    | cs => (false, cs)
  match digits? false body with
  | none => .error (.notANumber text)
  | some ds =>
      if digitLimit < ds.length then .error (.tooManyDigits ds.length)
      else .ok (if negative then -(ofDigits ds : Int) else ofDigits ds)

end Pseudonym.Text
