import Pseudonym.Yaml.Quoted

namespace Pseudonym.Yaml

inductive Token where
  /-- The language version that a file asks for. -/
  | version (major : Nat)
  /-- A short form for tags: a handle and what it stands for. -/
  | tagHandle (handle meaning : String)
  | directive
  | documentStart
  | documentEnd
  | blockSequence
  | blockMapping
  | blockEnd
  | openList
  | closeList
  | openMap
  | closeMap
  | dash
  | comma
  | key
  | value
  | alias (name : String)
  | anchor (name : String)
  | tag (handle : Option String) (suffix : String)
  | scalar (text : String) (isPlain : Bool)
  deriving DecidableEq, Repr, Inhabited

namespace Reader

def isNameChar (c : Char) : Bool := c.isAlphanum || c = '-' || c = '_'

/-- A name of letters, digits, `-` and `_`, after a mark. -/
def takeName (mayFollow : Option Char → Bool) : Reader String := do
  skip 1
  let name ← takeWhile isNameChar
  require (!name.isEmpty && mayFollow (← peek))
  return String.ofList name

def endsAnchor (c : Option Char) : Bool :=
  endsWord c ||
    match c with
    | some c => "?:,]\x7d%@`".toList.contains c
    | none => true

def isUriChar (c : Char) : Bool := c.isAlphanum || "-;/?:@&=+$,_.!~*'()[]".toList.contains c

/-- Bytes written as a percent sign and two hexadecimal digits each. -/
def takeUriBytes : Nat → Reader Text.Bytes
  | 0 => return []
  | fuel + 1 => do
      if (← peek) ≠ some '%' then return []
      skip 1
      let b ← takeHex 2
      return UInt8.ofNat b :: (← takeUriBytes fuel)

def takeUriText : Nat → Reader (List Char)
  | 0 => return []
  | fuel + 1 => do
      let plain ← takeWhile isUriChar
      if (← peek) ≠ some '%' then return plain
      match Text.decodeChars (← takeUriBytes fuel) with
      | .ok cs => return plain ++ cs ++ (← takeUriText fuel)
      | .error _ => fail

def takeUri : Reader String := do
  let text ← takeUriText ((← get).rest.length + 1)
  require !text.isEmpty
  return String.ofList text

/-- A handle: two exclamation marks with a name between them, or a single one before a blank. -/
def takeHandle : Reader String := do
  require ((← peek) = some '!')
  if (← peekAt 1) = some ' ' then
    skip 1
    return "!"
  skip 1
  let name ← takeWhile isNameChar
  require ((← peek) = some '!')
  skip 1
  return "!" ++ String.ofList name ++ "!"

def takeTag : Reader Token := do
  let token ← match ← peekAt 1 with
    | some '<' => do
        skip 2
        let uri ← takeUri
        require ((← peek) = some '>')
        skip 1
        pure (Token.tag none uri)
    | c =>
        if endsWord c then do
          skip 1
          pure (Token.tag none "!")
        else do
          let word := ((← get).rest.drop 1).takeWhile fun c => !endsField (some c)
          let handle ← if word.contains '!' then takeHandle else do
            skip 1
            pure "!"
          pure (Token.tag (some handle) (← takeUri))
  require (endsField (← peek))
  return token

def takeNumber : Reader Nat := do
  let digits ← takeWhile Char.isDigit
  require !digits.isEmpty
  return digits.foldl (fun n d => 10 * n + (d.toNat - '0'.toNat)) 0

def takeDirective : Reader Token := do
  let name ← takeName endsField
  let token ← match name with
    | "YAML" => do
        skipWhile (· = ' ')
        let major ← takeNumber
        require ((← peek) = some '.')
        skip 1
        let _ ← takeNumber
        require (endsField (← peek))
        pure (Token.version major)
    | "TAG" => do
        skipWhile (· = ' ')
        let handle ← takeHandle
        require ((← peek) = some ' ')
        skipWhile (· = ' ')
        let uri ← takeUri
        require (endsField (← peek))
        pure (Token.tagHandle handle uri)
    | _ => do
        skipWhile fun c => !isBreak c
        pure .directive
  endLine
  return token

end Reader

/-- A text that a colon may turn into a key. -/
structure PossibleKey where
  position : Nat
  isRequired : Bool
  start : Cursor

/-- What is known in the middle of a file. The tokens are held in reverse. -/
structure Scan where
  cursor : Cursor
  tokens : List Token := []
  count : Nat := 0
  /-- How many brackets are open. -/
  depth : Nat := 0
  indent : Int := -1
  outer : List Int := []
  keyAllowed : Bool := true
  /-- Possible keys with the depth at which they stand. -/
  keys : List (Nat × PossibleKey) := []

/-- A step of a scan. It may fail. -/
abbrev Scanner := StateT Scan Option

namespace Scanner

def fail {α : Type} : Scanner α := fun _ => none

def require (ok : Bool) : Scanner Unit := if ok then pure () else fail

def read {α : Type} (r : Reader α) : Scanner α := do
  let s ← get
  match r s.cursor with
  | some (a, cursor) => set { s with cursor }; return a
  | none => fail

def emit (t : Token) : Scanner Unit :=
  modify fun s => { s with tokens := t :: s.tokens, count := s.count + 1 }

/-- Puts a token before those from a position on. -/
def insertAt (position : Nat) (t : Token) : Scanner Unit :=
  modify fun s =>
    let (later, earlier) := s.tokens.splitAt (s.count - position)
    { s with tokens := later ++ t :: earlier, count := s.count + 1 }

def allowKey (b : Bool) : Scanner Unit := modify fun s => { s with keyAllowed := b }

def keyHere? : Scanner (Option PossibleKey) := return (← get).keys.lookup (← get).depth

/-- Gives up the possible key at this depth. -/
def dropKey : Scanner Unit := do
  let s ← get
  require !((s.keys.lookup s.depth).any (·.isRequired))
  set { s with keys := s.keys.filter fun k => k.1 ≠ s.depth }

/-- Gives up possible keys that are on an earlier line or too long ago. -/
def dropStaleKeys : Scanner Unit := do
  let s ← get
  let isStale (k : Nat × PossibleKey) : Bool :=
    k.2.start.line ≠ s.cursor.line || s.cursor.index - k.2.start.index > 1024
  require !((s.keys.filter isStale).any (·.2.isRequired))
  set { s with keys := s.keys.filter fun k => !isStale k }

/-- What comes next may turn out to be a key. -/
def saveKey : Scanner Unit := do
  let s ← get
  if s.keyAllowed then
    dropKey
    let isRequired := s.depth = 0 && s.indent = s.cursor.column
    modify fun s => { s with keys := (s.depth, ⟨s.count, isRequired, s.cursor⟩) :: s.keys }

def closeBlocks (column : Int) (s : Scan) : List Int → Scan
  | [] => s
  | i :: outer =>
      if column < s.indent then
        closeBlocks column { s with tokens := .blockEnd :: s.tokens, count := s.count + 1, indent := i, outer } outer
      else s

/-- Closes the blocks that are indented more than a column. -/
def unwind (column : Int) : Scanner Unit :=
  modify fun s => if s.depth = 0 then closeBlocks column s s.outer else s

/-- Opens a block at a column, unless one is open there. -/
def openBlock (column : Nat) : Scanner Bool := do
  let s ← get
  if s.indent < column then
    set { s with indent := column, outer := s.indent :: s.outer }
    return true
  return false

def skipBlanks : Nat → Scanner Unit
  | 0 => fail
  | fuel + 1 => do
      read Reader.skipComment
      match ← read Reader.takeBreak with
      | [] => return
      | _ =>
          if (← get).depth = 0 then allowKey true
          skipBlanks fuel

/-- Ends all blocks. -/
def endBlocks : Scanner Unit := do
  modify fun s => closeBlocks (-1) s s.outer
  dropKey
  allowKey false

def scanMark (t : Token) : Scanner Unit := do
  endBlocks
  read (Reader.skip 3)
  emit t

def scanOpen (t : Token) : Scanner Unit := do
  saveKey
  modify fun s => { s with depth := s.depth + 1 }
  allowKey true
  read (Reader.skip 1)
  emit t

def scanClose (t : Token) : Scanner Unit := do
  dropKey
  modify fun s => { s with depth := s.depth - 1 }
  allowKey false
  read (Reader.skip 1)
  emit t

def scanComma : Scanner Unit := do
  allowKey true
  dropKey
  read (Reader.skip 1)
  emit .comma

/-- A dash or a question mark, which open a block outside of brackets. -/
def scanBlockMark (block mark : Token) (keyAfter : Bool) : Scanner Unit := do
  let s ← get
  if s.depth = 0 then
    require s.keyAllowed
    if ← openBlock s.cursor.column then emit block
  allowKey keyAfter
  dropKey
  read (Reader.skip 1)
  emit mark

def scanValue : Scanner Unit := do
  let s ← get
  match ← keyHere? with
  | some k =>
      set { s with keys := s.keys.filter fun k => k.1 ≠ s.depth }
      insertAt k.position .key
      if s.depth = 0 then
        if ← openBlock k.start.column then insertAt k.position .blockMapping
      allowKey false
  | none =>
      if s.depth = 0 then
        require s.keyAllowed
        if ← openBlock s.cursor.column then emit .blockMapping
      allowKey (s.depth = 0)
      dropKey
  read (Reader.skip 1)
  emit .value

/-- A token that may be a key. -/
def scanKeyable (r : Reader Token) : Scanner Unit := do
  saveKey
  allowKey false
  emit (← read r)

def scanPlain : Scanner Unit := do
  saveKey
  let s ← get
  let (text, hasBreak) ← read (Reader.takePlain (s.depth > 0) (s.indent + 1))
  allowKey hasBreak
  emit (.scalar text true)

def scanBlock (folded : Bool) : Scanner Unit := do
  allowKey true
  dropKey
  let text ← read (Reader.takeBlock folded (← get).indent)
  emit (.scalar text false)

/-- Whether a plain text may start here. -/
def startsPlain (inFlow : Bool) (c : Char) (next : Option Char) : Bool :=
  !(endsWord (some c) || "-?:,[]\x7b\x7d#&*!|>'\"%@`".toList.contains c) ||
    (!endsWord next && (c = '-' || (!inFlow && (c = '?' || c = ':'))))

def scanToken (c : Char) : Scanner Unit := do
  let s ← get
  let inFlow := s.depth > 0
  let next := s.cursor.peekAt 1
  let lineStart := s.cursor.column = 0
  if c = '%' && lineStart then
    endBlocks
    emit (← read Reader.takeDirective)
  else if lineStart && s.cursor.atMark '-' then scanMark .documentStart
  else if lineStart && s.cursor.atMark '.' then scanMark .documentEnd
  else if c = '[' then scanOpen .openList
  else if c = '{' then scanOpen .openMap
  else if c = ']' then scanClose .closeList
  else if c = '}' then scanClose .closeMap
  else if c = ',' then scanComma
  else if c = '-' && endsWord next then scanBlockMark .blockSequence .dash true
  else if c = '?' && (inFlow || endsWord next) then scanBlockMark .blockMapping .key (!inFlow)
  else if c = ':' && (inFlow || endsWord next) then scanValue
  else if c = '*' then scanKeyable (.alias <$> Reader.takeName Reader.endsAnchor)
  else if c = '&' then scanKeyable (.anchor <$> Reader.takeName Reader.endsAnchor)
  else if c = '!' then scanKeyable Reader.takeTag
  else if c = '|' && !inFlow then scanBlock false
  else if c = '>' && !inFlow then scanBlock true
  else if c = '\'' then scanKeyable ((.scalar · false) <$> Reader.takeQuoted false)
  else if c = '"' then scanKeyable ((.scalar · false) <$> Reader.takeQuoted true)
  else if startsPlain inFlow c next then scanPlain
  else fail

def scanAll : Nat → Scanner Unit
  | 0 => fail
  | fuel + 1 => do
      skipBlanks ((← get).cursor.rest.length + 1)
      dropStaleKeys
      unwind (← get).cursor.column
      match (← get).cursor.peek with
      | none => endBlocks
      | some c =>
          scanToken c
          scanAll fuel

end Scanner

/-- Characters that a data file may hold. -/
def isAllowed (c : Char) : Bool :=
  let n := c.toNat
  n = 0x09 || n = 0x0a || n = 0x0d || (0x20 ≤ n && n ≤ 0x7e) || n = 0x85 || (0xa0 ≤ n && n ≤ 0xd7ff) ||
    (0xe000 ≤ n && n ≤ 0xfffd) || 0x10000 ≤ n

/-- The tokens of a text. A byte order mark in front is left out. -/
def tokens? (text : List Char) : Option (List Token) :=
  if text.all isAllowed then
    let cursor : Cursor := { rest := text }
    let cursor := if cursor.peek = some '\ufeff' then cursor.next else cursor
    (Scanner.scanAll (text.length + 2) { cursor }).map fun (_, s) => s.tokens.reverse
  else none

end Pseudonym.Yaml
