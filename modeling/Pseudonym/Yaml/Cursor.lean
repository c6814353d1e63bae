namespace Pseudonym.Yaml

/-- A line end of any kind. -/
def isBreak (c : Char) : Bool :=
  c = '\n' || c = '\u0085' || c = '\u2028' || c = '\u2029'

/-- Whether a character ends a word, as the end of the text does. -/
def endsWord : Option Char → Bool
  | none => true
  | some c => c = ' ' || c = '\t' || isBreak c

/-- Whether a character ends a word and is no tab. -/
def endsField : Option Char → Bool
  | none => true
  | some c => c = ' ' || isBreak c

def endsLine : Option Char → Bool
  | none => true
  | some c => isBreak c

structure Cursor where
  rest : List Char
  index : Nat := 0
  line : Nat := 0
  column : Nat := 0
  deriving Inhabited

namespace Cursor

/-- Past one character. A byte order mark takes no column. -/
def next (c : Cursor) : Cursor :=
  match c.rest with
  | [] => c
  | ch :: rest =>
      if isBreak ch then { rest, index := c.index + 1, line := c.line + 1, column := 0 }
      else
        { rest, index := c.index + 1, line := c.line,
          column := if ch = '\ufeff' then c.column else c.column + 1 }

def skip : Nat → Cursor → Cursor
  | 0, c => c
  | n + 1, c => skip n c.next

def peek (c : Cursor) : Option Char := c.rest.head?

def peekAt (c : Cursor) (n : Nat) : Option Char := (c.rest.drop n).head?

/-- Whether a document mark such as `---` stands here. -/
def atMark (c : Cursor) (mark : Char) : Bool :=
  c.rest.take 3 = [mark, mark, mark] && endsWord (c.peekAt 3)

end Cursor

/-- A step that moves a cursor and may fail. -/
abbrev Reader := StateT Cursor Option

namespace Reader

def peek : Reader (Option Char) := return (← get).peek

def peekAt (n : Nat) : Reader (Option Char) := return (← get).peekAt n

def skip (n : Nat) : Reader Unit := modify (Cursor.skip n)

def fail {α : Type} : Reader α := fun _ => none

def require (ok : Bool) : Reader Unit := if ok then pure () else fail

def takeWhile (p : Char → Bool) : Reader (List Char) := do
  let taken := (← get).rest.takeWhile p
  skip taken.length
  return taken

def skipWhile (p : Char → Bool) : Reader Unit := do
  let _ ← takeWhile p

/-- What a line end stands for. Nothing is taken where there is none. -/
def takeBreak : Reader (List Char) := do
  match ← peek with
  | some c =>
      if isBreak c then
        skip 1
        return if c = '\u0085' then ['\n'] else [c]
      else return []
  | none => return []

/-- Blanks, then a comment if there is one, up to the end of the line. -/
def skipComment : Reader Unit := do
  skipWhile (· = ' ')
  if (← peek) = some '#' then skipWhile fun c => !isBreak c

/-- The rest of a line that may hold a comment only. -/
def endLine : Reader Unit := do
  skipComment
  require (endsLine (← peek))
  let _ ← takeBreak

end Reader

end Pseudonym.Yaml
