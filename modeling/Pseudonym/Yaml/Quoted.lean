import Pseudonym.Text.Utf8
import Pseudonym.Yaml.Cursor

namespace Pseudonym.Yaml.Reader

/-- What a letter after a backslash stands for. -/
def escape? : Char → Option Char
  | '0' => some (Char.ofNat 0)
  | 'a' => some (Char.ofNat 7)
  | 'b' => some (Char.ofNat 8)
  | 't' => some '\t'
  | '\t' => some '\t'
  | 'n' => some '\n'
  | 'v' => some (Char.ofNat 11)
  | 'f' => some (Char.ofNat 12)
  | 'r' => some '\r'
  | 'e' => some (Char.ofNat 27)
  | ' ' => some ' '
  | '"' => some '"'
  | '\\' => some '\\'
  | '/' => some '/'
  | 'N' => some (Char.ofNat 0x85)
  | '_' => some (Char.ofNat 0xa0)
  | 'L' => some (Char.ofNat 0x2028)
  | 'P' => some (Char.ofNat 0x2029)
  | _ => none

/-- How many hexadecimal digits follow a letter after a backslash. -/
def codeLength? : Char → Option Nat
  | 'x' => some 2
  | 'u' => some 4
  | 'U' => some 8
  | _ => none

def hexValue? (c : Char) : Option Nat :=
  if c.isDigit then some (c.toNat - '0'.toNat)
  else if 'a' ≤ c && c ≤ 'f' then some (c.toNat - 'a'.toNat + 10)
  else if 'A' ≤ c && c ≤ 'F' then some (c.toNat - 'A'.toNat + 10)
  else none

def takeHex (count : Nat) : Reader Nat := do
  let digits := (← get).rest.take count
  match digits.mapM hexValue? with
  | some values =>
      require (values.length = count)
      skip count
      return values.foldl (fun n d => 16 * n + d) 0
  | none => fail

/-- Line ends between two words of a text, each with the blanks before it. -/
def takeBreaks : Nat → Reader (List Char)
  | 0 => fail
  | fuel + 1 => do
      let c ← get
      require !(c.atMark '-' || c.atMark '.')
      skipWhile fun c => c = ' ' || c = '\t'
      match ← takeBreak with
      | [] => return []
      | taken => return taken ++ (← takeBreaks fuel)

/-- Folds a line end and those after it: a single one is a blank, of several the first is dropped. -/
def fold (first others : List Char) : List Char :=
  if first ≠ ['\n'] then first ++ others
  else if others.isEmpty then [' ']
  else others

def isQuotedWord (c : Char) : Bool :=
  !(c = '\'' || c = '"' || c = '\\' || c = ' ' || c = '\t' || isBreak c)

/-- An escape, after its backslash. -/
def takeEscape (fuel : Nat) : Reader (List Char) := do
  match ← peek with
  | none => fail
  | some c =>
      match escape? c, codeLength? c with
      | some e, _ => skip 1; return [e]
      | none, some n =>
          skip 1
          let code ← takeHex n
          require (code < 0x110000)
          return [Char.ofNat code]
      | none, none =>
          require (isBreak c)
          let _ ← takeBreak
          takeBreaks fuel

/-- The words of a text in quotes, up to the closing quote. -/
def takeQuotedText (double : Bool) : Nat → Reader (List Char)
  | 0 => fail
  | fuel + 1 => do
      let word ← takeWhile isQuotedWord
      match ← peek, double with
      | some '\'', false =>
          if (← peekAt 1) = some '\'' then
            skip 2
            return word ++ '\'' :: (← takeQuotedText double fuel)
          else
            skip 1
            return word
      | some '"', true => skip 1; return word
      | some '\\', true =>
          skip 1
          let escaped ← takeEscape fuel
          return word ++ escaped ++ (← takeQuotedText double fuel)
      | some c, _ =>
          if c = '\'' || c = '"' || c = '\\' then
            skip 1
            return word ++ c :: (← takeQuotedText double fuel)
          else
            let blanks ← takeWhile fun c => c = ' ' || c = '\t'
            require (← peek).isSome
            match ← takeBreak with
            | [] => return word ++ blanks ++ (← takeQuotedText double fuel)
            | first =>
                let others ← takeBreaks fuel
                return word ++ fold first others ++ (← takeQuotedText double fuel)
      | none, _ => fail

def takeQuoted (double : Bool) : Reader String := do
  skip 1
  return String.ofList (← takeQuotedText double ((← get).rest.length + 1))

/-- The blanks and line ends after a word of a plain text, and whether a line end is among them. None
where the text ends at a document mark. -/
def takePlainBreaks : Nat → Reader (Option (List Char))
  | 0 => fail
  | fuel + 1 => do
      let c ← get
      if c.atMark '-' || c.atMark '.' then return none
      skipWhile (· = ' ')
      match ← takeBreak with
      | [] => return some []
      | taken => return (← takePlainBreaks fuel).map (taken ++ ·)

structure PlainGap where
  text : List Char
  hasBreak : Bool
  atEnd : Bool

def takePlainGap (fuel : Nat) : Reader PlainGap := do
  let blanks ← takeWhile (· = ' ')
  match ← takeBreak with
  | [] => return ⟨blanks, false, blanks.isEmpty⟩
  | first =>
      match ← takePlainBreaks fuel with
      | none => return ⟨[], true, true⟩
      | some others => return ⟨fold first others, true, false⟩

def isFlowMark (c : Char) : Bool := c = ',' || c = '[' || c = ']' || c = '{' || c = '}'

/-- The longest plain word at the start of a list. -/
def plainWord (inFlow : Bool) : List Char → List Char
  | [] => []
  | c :: rest =>
      let colonEnds := match rest with
        | [] => true
        | d :: _ => endsWord (some d) || (inFlow && isFlowMark d)
      if endsWord (some c) || (c = ':' && colonEnds) || (inFlow && (isFlowMark c || c = '?')) then []
      else c :: plainWord inFlow rest

/-- A plain text, and whether a line end follows it. Outside of brackets its lines are indented. -/
def takePlainText (inFlow : Bool) (indent : Int) : Nat → Reader (List Char × Bool)
  | 0 => fail
  | fuel + 1 => do
      if (← peek) = some '#' then return ([], false)
      let word := plainWord inFlow (← get).rest
      if word.isEmpty then return ([], false)
      skip word.length
      let gap ← takePlainGap (fuel + 1)
      let c ← get
      if gap.atEnd || c.peek = some '#' || (!inFlow && (c.column : Int) < indent) then
        return (word, gap.hasBreak)
      let (more, hasBreak) ← takePlainText inFlow indent fuel
      if more.isEmpty then return (word, gap.hasBreak || hasBreak)
      return (word ++ gap.text ++ more, hasBreak)

def takePlain (inFlow : Bool) (indent : Int) : Reader (String × Bool) := do
  let (text, hasBreak) ← takePlainText inFlow indent ((← get).rest.length + 1)
  return (String.ofList text, hasBreak)

/-- What becomes of the line ends at the end of a block. -/
inductive Chomping where
  | strip
  | clip
  | keep
  deriving DecidableEq, Repr, Inhabited

def chomping? : Option Char → Option Chomping
  | some '+' => some .keep
  | some '-' => some .strip
  | _ => none

def takeChomping : Reader (Option Chomping) := do
  match chomping? (← peek) with
  | some c => skip 1; return some c
  | none => return none

def takeIndentDigit : Reader (Option Nat) := do
  match ← peek with
  | some c =>
      if c.isDigit then
        require (c ≠ '0')
        skip 1
        return some (c.toNat - '0'.toNat)
      else return none
  | none => return none

/-- The marks after `|` or `>`, in either order. -/
def takeBlockHeader : Reader (Chomping × Option Nat) := do
  let before ← takeChomping
  let digit ← takeIndentDigit
  let after ← if before.isNone && digit.isSome then takeChomping else pure none
  require (endsField (← peek))
  return ((before <|> after).getD .clip, digit)

/-- Line ends before the first line, with the greatest indentation among blank lines. -/
def takeLeadingBreaks : Nat → Reader (List Char × Nat)
  | 0 => fail
  | fuel + 1 => do
      skipWhile (· = ' ')
      let column := (← get).column
      match ← takeBreak with
      | [] => return ([], column)
      | taken =>
          let (more, widest) ← takeLeadingBreaks fuel
          return (taken ++ more, max column widest)

/-- Blanks up to an indentation. -/
def skipIndent (indent : Nat) : Reader Unit := do
  let c ← get
  let blanks := (c.rest.takeWhile (· = ' ')).length
  skip (min blanks (indent - c.column))

def takeBlockBreaks (indent : Nat) : Nat → Reader (List Char)
  | 0 => fail
  | fuel + 1 => do
      skipIndent indent
      match ← takeBreak with
      | [] => return []
      | taken => return taken ++ (← takeBlockBreaks indent fuel)

structure BlockLines where
  text : List Char
  lastBreak : List Char
  trailing : List Char

/-- The lines of a block, given the line ends before the first one. -/
def takeBlockLines (folded : Bool) (indent : Nat) (breaks : List Char) : Nat → Reader BlockLines
  | 0 => fail
  | fuel + 1 => do
      let c ← get
      if c.column ≠ indent || c.peek.isNone then return ⟨[], [], breaks⟩
      let indented (ch : Option Char) : Bool := ch = some ' ' || ch = some '\t'
      let startsBlank := indented c.peek
      let line ← takeWhile fun c => !isBreak c
      let lineBreak ← takeBreak
      let after ← takeBlockBreaks indent (fuel + 1)
      let c ← get
      if c.column ≠ indent || c.peek.isNone then return ⟨breaks ++ line, lineBreak, after⟩
      let joint :=
        if folded && lineBreak = ['\n'] && !startsBlank && !indented c.peek then
          if after.isEmpty then [' '] else []
        else lineBreak
      let more ← takeBlockLines folded indent after fuel
      return { more with text := breaks ++ line ++ joint ++ more.text }

/-- A block of lines below an indentation. -/
def takeBlock (folded : Bool) (indent : Int) : Reader String := do
  skip 1
  let (chomping, digit) ← takeBlockHeader
  endLine
  let least := max (indent + 1).toNat 1
  let fuel := (← get).rest.length + 1
  let (indent, breaks) ← match digit with
    | none =>
        let (breaks, widest) ← takeLeadingBreaks fuel
        pure (max least widest, breaks)
    | some d =>
        let indent := least + d - 1
        pure (indent, ← takeBlockBreaks indent fuel)
  let lines ← takeBlockLines folded indent breaks fuel
  return String.ofList <| match chomping with
    | .strip => lines.text
    | .clip => lines.text ++ lines.lastBreak
    | .keep => lines.text ++ lines.lastBreak ++ lines.trailing

end Pseudonym.Yaml.Reader
