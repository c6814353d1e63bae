namespace Pseudonym.Language.Lexeme

def between (lo hi : Nat) (c : Char) : Bool := lo ≤ c.toNat && c.toNat ≤ hi

def isDigit (c : Char) : Bool := between 0x30 0x39 c

def isHexDigit (c : Char) : Bool := isDigit c || between 0x41 0x46 c || between 0x61 0x66 c

def isOctalDigit (c : Char) : Bool := between 0x30 0x37 c

def isLowerLetter (c : Char) : Bool := between 0x61 0x7a c

def isLetter (c : Char) : Bool := isLowerLetter c || between 0x41 0x5a c

/-- Spaces other than the controls. -/
def isSpaceSeparator (c : Char) : Bool :=
  let n := c.toNat
  n == 0x20 || n == 0xa0 || n == 0x1680 || between 0x2000 0x200a c || n == 0x202f || n == 0x205f ||
    n == 0x3000

/-- Characters between tokens. -/
def isBlank (c : Char) : Bool :=
  let n := c.toNat
  between 0x09 0x0d c || isSpaceSeparator c || n == 0xfeff || n == 0x2028 || n == 0x2029 ||
    n == 0x2060 || n == 0x200b

/-- Characters that part words when the end of a statement is looked for. Spaces that forbid a line
break are not among them. -/
def isWhite (c : Char) : Bool :=
  let n := c.toNat
  between 0x09 0x0d c || n == 0x20 || n == 0x1680 || between 0x2000 0x2006 c ||
    between 0x2008 0x200a c || n == 0x2028 || n == 0x2029 || n == 0x205f || n == 0x3000

def punctuation : List Char := ":;`\"'@#.,|^&<=>+-*/\\%?!~()[]\x7b\x7d".toList

/-- Characters of a name, escapes apart. -/
def isNamePart (c : Char) : Bool :=
  !(c.toNat < 0x20 || isBlank c || punctuation.contains c)

def isNameStart (c : Char) : Bool := isNamePart c && !isDigit c

def countWhile (p : Char → Bool) : List Char → Nat
  | [] => 0
  | c :: cs => if p c then countWhile p cs + 1 else 0

/-- A character written by its code, such as a or, with braces, any number of digits. -/
def unicodeEscape : List Char → Option Nat
  | '\\' :: 'u' :: '\x7b' :: cs =>
      let n := countWhile isHexDigit cs
      match cs.drop n with
      | '\x7d' :: _ => if n = 0 then none else some (n + 4)
      | _ => none
  | '\\' :: 'u' :: a :: b :: c :: d :: _ =>
      if isHexDigit a && isHexDigit b && isHexDigit c && isHexDigit d then some 6 else none
  | _ => none

/-- The rest of a name, in at most `fuel` pieces. -/
def nameRest : Nat → List Char → Nat
  | 0, _ => 0
  | _ + 1, [] => 0
  | fuel + 1, c :: cs =>
      if isNamePart c then nameRest fuel cs + 1
      else
        match unicodeEscape (c :: cs) with
        | some n => nameRest fuel ((c :: cs).drop n) + n
        | none => 0

def name (cs : List Char) : Option Nat :=
  match cs with
  | [] => none
  | c :: rest =>
      if isNameStart c then some (nameRest rest.length rest + 1)
      else (unicodeEscape cs).map fun n => nameRest cs.length (cs.drop n) + n

def privateName : List Char → Option Nat
  | '#' :: cs => (name cs).map (· + 1)
  | _ => none

/-- Digits with single underscores between them. -/
def digitRun (p : Char → Bool) : List Char → Nat
  | [] => 0
  | c :: cs =>
      if p c then
        match cs with
        | '_' :: d :: rest => if p d then digitRun p (d :: rest) + 2 else 1
        | cs => digitRun p cs + 1
      else 0

def atLeastOne (n : Nat) : Option Nat := if n = 0 then none else some n

def longer (a b : Option Nat) : Option Nat :=
  match a, b with
  | some m, some n => some (max m n)
  | some m, none => some m
  | none, b => b

def withSuffix (suffix : Char) (cs : List Char) (n : Option Nat) : Option Nat :=
  n.map fun n => if (cs.drop n).head? = some suffix then n + 1 else n

def radixLiteral (cs : List Char) : Option Nat :=
  match cs with
  | '0' :: m :: rest =>
      let p? : Option (Char → Bool) :=
        if m = 'x' || m = 'X' then some isHexDigit
        else if m = 'b' || m = 'B' then some (between 0x30 0x31)
        else if m = 'o' || m = 'O' then some isOctalDigit
        else none
      p?.bind fun p => (atLeastOne (digitRun p rest)).map (· + 2)
  | _ => none

/-- The part after the letter of an exponent, with the letter. -/
def exponent (cs : List Char) : Nat :=
  match cs with
  | e :: rest =>
      if e = 'e' || e = 'E' then
        match rest with
        | s :: digits =>
            if s = '+' || s = '-' then
              ((atLeastOne (digitRun isDigit digits)).map (· + 2)).getD 0
            else ((atLeastOne (digitRun isDigit rest)).map (· + 1)).getD 0
        | [] => 0
      else 0
  | [] => 0

/-- The part before the point of a decimal: nought, or digits with at most one leading nought. -/
def wholePart (cs : List Char) : Nat :=
  let tail : List Char → Nat := fun cs => match cs with
    | '_' :: rest => ((atLeastOne (digitRun isDigit rest)).map (· + 1)).getD 0
    | cs => digitRun isDigit cs
  match cs with
  | '0' :: d :: rest => if between 0x31 0x39 d then tail rest + 2 else 1
  | c :: rest => if isDigit c then (if c = '0' then 1 else tail rest + 1) else 0
  | [] => 0

def decimalLiteral (cs : List Char) : Option Nat :=
  match cs with
  | '.' :: rest =>
      (atLeastOne (digitRun isDigit rest)).map fun n => n + 1 + exponent (rest.drop n)
  | _ =>
      let whole := wholePart cs
      let fraction : Option Nat :=
        if whole = 0 then none
        else
          match cs.drop whole with
          | '.' :: rest =>
              let n := digitRun isDigit rest
              some (whole + 1 + n + exponent (rest.drop n))
          | rest => some (whole + exponent rest)
      longer fraction (withSuffix 'n' cs (atLeastOne (digitRun isDigit cs)))

def number (cs : List Char) : Option Nat :=
  longer (withSuffix 'n' cs (radixLiteral cs)) (decimalLiteral cs)

/-- A backslash and what it escapes. -/
def escape : List Char → Option Nat
  | '\\' :: 'u' :: cs => unicodeEscape ('\\' :: 'u' :: cs)
  | '\\' :: 'x' :: a :: b :: _ => if isHexDigit a && isHexDigit b then some 4 else none
  | '\\' :: '\r' :: c :: _ => if c = '\n' || c.toNat = 0x2028 || c.toNat = 0x2029 then some 3 else some 2
  | '\\' :: '?' :: c :: _ => if c = '\n' || c.toNat = 0x2028 || c.toNat = 0x2029 then some 3 else some 2
  | '\\' :: c :: cs =>
      if isOctalDigit c then some (2 + countWhile isOctalDigit (cs.take 2))
      else if c = 'x' then none
      else some 2
  | _ => none

def fragment (quote : Char) (cs : List Char) : Option Nat :=
  atLeastOne (countWhile (fun c => !(c = quote || c = '\\' || c = '\r' || c = '\n')) cs)

/-- Text inside a quoted attribute, up to a reference to a character. -/
def jsxFragment (quote : Char) : List Char → Nat
  | [] => 0
  | '&' :: c :: cs =>
      if c = '#' || isLetter c then 0
      else jsxFragment quote cs + 2
  | ['&'] => 0
  | c :: cs => if c = quote then 0 else jsxFragment quote cs + 1

/-- A class of characters inside a regular expression, after its opening bracket. -/
def regexClass : List Char → Option Nat
  | [] => none
  | ']' :: _ => some 1
  | '\\' :: c :: cs => if c = '\n' then none else (regexClass cs).map (· + 2)
  | c :: cs => if c = '\n' || c = '\\' then none else (regexClass cs).map (· + 1)

/-- The body of a regular expression, in at most `fuel` pieces. -/
def regexBody : Nat → List Char → Nat
  | 0, _ => 0
  | _ + 1, [] => 0
  | fuel + 1, c :: cs =>
      if c = '[' then
        match regexClass cs with
        | some n => regexBody fuel (cs.drop n) + n + 1
        | none => 0
      else if c = '\\' then
        match cs with
        | d :: rest => if d = '\n' then 0 else regexBody fuel rest + 2
        | [] => 0
      else if c = '/' || c = '\n' then 0
      else regexBody fuel cs + 1

def regexPattern (cs : List Char) : Option Nat := atLeastOne (regexBody cs.length cs)

def regexFlags (cs : List Char) : Option Nat := atLeastOne (countWhile isLowerLetter cs)

def isLineEnd (c : Char) : Bool := c = '\n' || c = '\r' || c.toNat = 0x2028 || c.toNat = 0x2029

/-- What follows the opening of a block comment. -/
def blockComment : List Char → Option Nat
  | [] => none
  | '*' :: '/' :: _ => some 2
  | _ :: cs => (blockComment cs).map (· + 1)

def comment : List Char → Option Nat
  | '/' :: '/' :: cs => some (2 + countWhile (fun c => !isLineEnd c) cs)
  | '/' :: '*' :: cs => (blockComment cs).map (· + 2)
  | _ => none

def hashBang : List Char → Option Nat
  | '#' :: '!' :: cs => some (2 + countWhile (· ≠ '\n') cs)
  | _ => none

def isSimpleNamePart (c : Char) : Bool := isLetter c || isDigit c || c = '_' || c = '$'

/-- A name with at least one hyphen. -/
def jsxName (cs : List Char) : Option Nat :=
  match cs with
  | [] => none
  | c :: rest =>
      if isSimpleNamePart c && !isDigit c then
        let n := countWhile isSimpleNamePart rest
        match rest.drop n with
        | '-' :: tail => some (n + 2 + countWhile (fun c => isSimpleNamePart c || c = '-') tail)
        | _ => none
      else none

/-- A character by name or by number, such as an ampersand, a name and a semicolon. -/
def entity : List Char → Option Nat
  | '&' :: cs =>
      let close (before limit : Nat) (p : Char → Bool) (cs : List Char) : Option Nat :=
        let n := countWhile p cs
        if 1 ≤ n && n ≤ limit && (cs.drop n).head? = some ';' then some (before + n + 1) else none
      match cs with
      | '#' :: x :: rest =>
          if x = 'x' || x = 'X' then close 3 6 isHexDigit rest else close 2 5 isDigit (x :: rest)
      | cs => close 1 30 isLetter cs
  | _ => none

/-- The words static and get up to the end of the line. -/
def staticGet : List Char → Option Nat
  | 's' :: 't' :: 'a' :: 't' :: 'i' :: 'c' :: cs =>
      let isControlBlank (c : Char) : Bool := between 0x09 0x0d c || c = ' '
      let gap := countWhile isControlBlank cs
      match cs.drop gap with
      | 'g' :: 'e' :: 't' :: rest =>
          let blanks := rest.take (countWhile isControlBlank rest)
          let upToLine := (blanks.reverse.dropWhile (· ≠ '\n')).length
          if gap = 0 || upToLine = 0 then none else some (6 + gap + 3 + upToLine)
      | _ => none
  | _ => none

end Pseudonym.Language.Lexeme
