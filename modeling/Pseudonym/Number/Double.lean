namespace Pseudonym.Number

/-- A double precision number by its bits. -/
structure Double where
  bits : UInt64
  deriving DecidableEq, Repr, Inhabited

namespace Double

def ofFloat (x : Float) : Double := ⟨x.toBits⟩

def toFloat (x : Double) : Float := Float.ofBits x.bits

def isNegative (x : Double) : Bool := x.bits >>> 63 == 1

def exponentBits (x : Double) : Nat := ((x.bits >>> 52) &&& 0x7ff).toNat

def fractionBits (x : Double) : Nat := (x.bits &&& 0xfffffffffffff).toNat

def isNaN (x : Double) : Bool := x.exponentBits == 2047 && x.fractionBits != 0

def isInfinite (x : Double) : Bool := x.exponentBits == 2047 && x.fractionBits == 0

/-- The size of a finite number is `mantissa * 2 ^ (power - 1074)`. -/
def mantissa (x : Double) : Nat :=
  if x.exponentBits = 0 then x.fractionBits else x.fractionBits + Nat.pow 2 52

def power (x : Double) : Nat := if x.exponentBits = 0 then 0 else x.exponentBits - 1

/-- A fraction of two natural numbers. -/
structure Fraction where
  num : Nat
  den : Nat

/-- The size of a finite number, times `2 ^ 1075`, over `2 ^ 1075`. -/
def size (x : Double) : Fraction := ⟨x.mantissa * Nat.pow 2 x.power * 2, Nat.pow 2 1075⟩

/-- Half the distances to the neighbours below and above, over `2 ^ 1075`. -/
def halfGaps (x : Double) : Nat × Nat :=
  let above := Nat.pow 2 x.power
  (if x.fractionBits = 0 && x.exponentBits > 1 then above / 2 else above, above)

/-- The greatest `e` with `10 ^ e ≤ f`, found from a first guess. -/
def decimalExponent (f : Fraction) : Int :=
  let size (n : Nat) : Int := (Nat.toDigits 10 n).length
  let guess := size f.num - size f.den
  let reaches (e : Int) : Bool :=
    if e ≥ 0 then f.den * Nat.pow 10 e.toNat ≤ f.num else f.den ≤ f.num * Nat.pow 10 (-e).toNat
  if reaches guess then guess else guess - 1

/-- `f / 10 ^ e` as a fraction. -/
def scale (f : Fraction) (e : Int) : Fraction :=
  if e ≥ 0 then ⟨f.num, f.den * Nat.pow 10 e.toNat⟩ else ⟨f.num * Nat.pow 10 (-e).toNat, f.den⟩

/-- The decimal of `count` digits nearest to a number, if it reads back as that number. The result
stands for `digits * 10 ^ (e - count + 1)`. -/
def digitsOf? (x : Double) (e : Int) (count : Nat) : Option Nat :=
  let v := x.size
  let unit := e - (count : Int) + 1
  let s := scale v unit
  let floor := s.num / s.den
  let (below, above) := x.halfGaps
  let (low, high) := (scale ⟨v.num - below, v.den⟩ unit, scale ⟨v.num + above, v.den⟩ unit)
  let closed := x.mantissa % 2 = 0
  let inside (n : Nat) : Bool :=
    if closed then low.num ≤ n * low.den && n * high.den ≤ high.num
    else low.num < n * low.den && n * high.den < high.num
  let twice := 2 * (s.num - floor * s.den)
  let floorFirst := twice < s.den || (twice = s.den && floor % 2 = 0)
  let (first, second) := if floorFirst then (floor, floor + 1) else (floor + 1, floor)
  if inside first then some first else if inside second then some second else none

def shortestFrom (x : Double) (e : Int) (count : Nat) : Nat → Nat × Nat
  | 0 => ((digitsOf? x e count).getD 0, count)
  | more + 1 =>
      match digitsOf? x e count with
      | some n => (n, count)
      | none => shortestFrom x e (count + 1) more

/-- The fewest decimal digits that read back as a finite number other than nought, and the exponent
of the first of them. -/
def shortest (x : Double) : List Char × Int :=
  let e := decimalExponent x.size
  let (n, count) := shortestFrom x e 1 16
  let digits := Nat.toDigits 10 n
  let e := if digits.length > count then e + 1 else e
  let trimmed := (digits.reverse.dropWhile (· = '0')).reverse
  (trimmed, e)

def signText (negative : Bool) : String := if negative then "-" else ""

/-- Digits with a point after the first `whole` of them, and at least one digit on each side. -/
def positional (digits : List Char) (e : Int) : String :=
  if e < 0 then
    String.ofList ('0' :: '.' :: List.replicate ((-e).toNat - 1) '0' ++ digits)
  else
    let whole := e.toNat + 1
    let front := digits.take whole ++ List.replicate (whole - digits.length) '0'
    let back := digits.drop whole
    String.ofList (front ++ '.' :: (if back.isEmpty then ['0'] else back))

def scientific (digits : List Char) (e : Int) : String :=
  let power := Nat.toDigits 10 e.natAbs
  let power := if power.length < 2 then '0' :: power else power
  let front := match digits with
    | [] => ['0']
    | [d] => [d]
    | d :: ds => d :: '.' :: ds
  String.ofList (front ++ 'e' :: (if e < 0 then '-' else '+') :: power)

/-- The fewest digits that read back. Positional from `10 ^ -4` up to below `10 ^ 16`. -/
def text (x : Double) : String :=
  if x.isNaN then "nan"
  else if x.isInfinite then signText x.isNegative ++ "inf"
  else if x.mantissa = 0 then signText x.isNegative ++ "0.0"
  else
    let (digits, e) := x.shortest
    signText x.isNegative ++ (if -4 ≤ e ∧ e < 16 then positional digits e else scientific digits e)

/-- A quotient to the nearest whole number, a half to the even one. -/
def roundHalfEven (num den : Nat) : Nat :=
  let q := num / den
  let r := num % den
  if 2 * r > den || (2 * r = den && q % 2 = 1) then q + 1 else q

/-- A fixed number of decimal places, rounded from the exact value. -/
def fixed (x : Double) (places : Nat) : String :=
  if x.isNaN then "nan"
  else if x.isInfinite then signText x.isNegative ++ "inf"
  else
    let v := x.size
    let n := roundHalfEven (v.num * Nat.pow 10 places) v.den
    let digits := Nat.toDigits 10 n
    let digits := List.replicate (places + 1 - digits.length) '0' ++ digits
    let whole := digits.take (digits.length - places)
    let back := digits.drop (digits.length - places)
    signText x.isNegative ++
      String.ofList (whole ++ (if places = 0 then [] else '.' :: back))

/-- Toward nought. Nothing for numbers that are not finite. -/
def truncate? (x : Double) : Option Int :=
  if x.exponentBits = 2047 then none
  else
    let n : Int := x.size.num / x.size.den
    some (if x.isNegative then -n else n)

end Double

end Pseudonym.Number
