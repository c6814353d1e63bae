import Pseudonym.Yaml.Plain
import Pseudonym.Yaml.Token

namespace Pseudonym.Yaml

inductive Node where
  | scalar (tag : Tag) (text : String)
  | sequence (tag : Tag) (items : List Node)
  | mapping (tag : Tag) (place : Nat) (pairs : List (Node × Node))
  deriving Inhabited

namespace Node

def tag : Node → Tag
  | scalar t _ => t
  | sequence t _ => t
  | mapping t _ _ => t

/-- What stands where nothing is written. -/
def empty : Node := scalar .null ""

end Node

/-- What is left of the tokens, the tag handles, and the nodes with a name. A node that is not
finished yet has a name only. -/
structure Composing where
  tokens : List Token
  handles : List (String × String) := []
  anchors : List (String × Option Node) := []

/-- A step in making nodes of tokens. It may fail. -/
abbrev Composer := StateT Composing Option

namespace Composer

def fail {α : Type} : Composer α := fun _ => none

def require (ok : Bool) : Composer Unit := if ok then pure () else fail

def peek : Composer (Option Token) := return (← get).tokens.head?

/-- The place of the token that comes next, counted from the end. -/
def place : Composer Nat := return (← get).tokens.length

def skip : Composer Unit := modify fun c => { c with tokens := c.tokens.tail }

/-- Takes a token if it comes next. -/
def accept (t : Token) : Composer Bool := do
  if (← peek) = some t then
    skip
    return true
  return false

def expect (t : Token) : Composer Unit := do require (← accept t)

def nextIs (ts : List Token) : Composer Bool := do
  match ← peek with
  | some t => return ts.contains t
  | none => return false

def defaultHandles : List (String × String) := [("!", "!"), ("!!", Tag.space)]

def takeAnchor : Composer (Option String) := do
  match ← peek with
  | some (.anchor name) => skip; return some name
  | _ => return none

/-- The whole tag that comes next. -/
def takeTag : Composer (Option String) := do
  match ← peek with
  | some (.tag handle suffix) =>
      skip
      match handle with
      | none => return some suffix
      | some h =>
          match (← get).handles.lookup h with
          | some meaning => return some (meaning ++ suffix)
          | none => fail
  | _ => return none

/-- A tag and a name for the node that follows, in either order. -/
def takeProperties : Composer (Option String × Option String) := do
  match ← takeAnchor with
  | some name => return (some name, ← takeTag)
  | none =>
      match ← takeTag with
      | some tag => return (← takeAnchor, some tag)
      | none => return (none, none)

/-- Starts a node with a name. Names are not used twice. -/
def openAnchor : Option String → Composer Unit
  | none => pure ()
  | some name => do
      require ((← get).anchors.lookup name).isNone
      modify fun c => { c with anchors := (name, none) :: c.anchors }

def closeAnchor (name : Option String) (n : Node) : Composer Node := do
  match name with
  | none => return n
  | some name =>
      modify fun c => { c with anchors := (name, some n) :: c.anchors }
      return n

def scalarTag (tag : Option String) (text : String) (isPlain : Bool) : Tag :=
  match tag with
  | none => if isPlain then plainTag text else .text
  | some "!" => plainTag text
  | some t => Tag.ofUri t

def collectionTag (own : Tag) : Option String → Tag
  | none => own
  | some "!" => own
  | some t => Tag.ofUri t

mutual

/-- A node. Outside of brackets it may be a block; after a key it may be a list of dashes that is not
indented. -/
def node (block dashes : Bool) : Nat → Composer Node
  | 0 => fail
  | fuel + 1 => do
      match ← peek with
      | some (.alias name) =>
          skip
          match (← get).anchors.lookup name with
          | some (some n) => return n
          | _ => fail
      | _ =>
          let (name, tag) ← takeProperties
          openAnchor name
          let listTag := collectionTag .sequence tag
          let mapTag := collectionTag .mapping tag
          let n ← match ← peek with
            | some .dash =>
                if dashes then Node.sequence listTag <$> looseItems fuel
                else if name.isSome || tag.isSome then pure (.scalar (scalarTag tag "" true) "")
                else fail
            | some (.scalar text isPlain) => do
                skip
                pure (.scalar (scalarTag tag text isPlain) text)
            | some .openList => do
                skip
                Node.sequence listTag <$> listItems true fuel
            | some .openMap => do
                let here ← place
                skip
                Node.mapping mapTag here <$> mapPairs true fuel
            | some .blockSequence =>
                if block then do
                  skip
                  Node.sequence listTag <$> blockItems fuel
                else fail
            | some .blockMapping =>
                if block then do
                  let here ← place
                  skip
                  Node.mapping mapTag here <$> blockPairs fuel
                else fail
            | _ =>
                if name.isSome || tag.isSome then pure (.scalar (scalarTag tag "" true) "") else fail
          closeAnchor name n

/-- A node, or nothing before one of some tokens. -/
def nodeUnless (stops : List Token) (block dashes : Bool) : Nat → Composer Node
  | 0 => fail
  | fuel + 1 => do if ← nextIs stops then return .empty else node block dashes fuel

/-- The items of an indented list. -/
def blockItems : Nat → Composer (List Node)
  | 0 => fail
  | fuel + 1 => do
      if ← accept .dash then
        let n ← nodeUnless [.dash, .blockEnd] true false fuel
        return n :: (← blockItems fuel)
      expect .blockEnd
      return []

/-- The items of a list that is not indented. -/
def looseItems : Nat → Composer (List Node)
  | 0 => fail
  | fuel + 1 => do
      if ← accept .dash then
        let n ← nodeUnless [.dash, .key, .value, .blockEnd] true false fuel
        return n :: (← looseItems fuel)
      return []

def blockPairs : Nat → Composer (List (Node × Node))
  | 0 => fail
  | fuel + 1 => do
      let stops := [Token.key, .value, .blockEnd]
      if ← accept .key then
        let k ← nodeUnless stops true true fuel
        let v ← if ← accept .value then nodeUnless stops true true fuel else pure .empty
        return (k, v) :: (← blockPairs fuel)
      expect .blockEnd
      return []

/-- The items of a list in brackets. A key makes an item a mapping of one entry. -/
def listItems (first : Bool) : Nat → Composer (List Node)
  | 0 => fail
  | fuel + 1 => do
      if ← accept .closeList then return []
      if !first then
        expect .comma
        if ← accept .closeList then return []
      let here ← place
      if ← accept .key then
        let k ← nodeUnless [.value, .comma, .closeList] false false fuel
        let v ← if ← accept .value then nodeUnless [.comma, .closeList] false false fuel
          else pure .empty
        return .mapping .mapping here [(k, v)] :: (← listItems false fuel)
      let n ← node false false fuel
      return n :: (← listItems false fuel)

def mapPairs (first : Bool) : Nat → Composer (List (Node × Node))
  | 0 => fail
  | fuel + 1 => do
      if ← accept .closeMap then return []
      if !first then
        expect .comma
        if ← accept .closeMap then return []
      if ← accept .key then
        let k ← nodeUnless [.value, .comma, .closeMap] false false fuel
        let v ← if ← accept .value then nodeUnless [.comma, .closeMap] false false fuel
          else pure .empty
        return (k, v) :: (← mapPairs false fuel)
      let k ← node false false fuel
      return (k, .empty) :: (← mapPairs false fuel)

end

/-- Directives before a document. -/
def directives (seenVersion : Bool) : Nat → Composer Unit
  | 0 => fail
  | fuel + 1 => do
      match ← peek with
      | some (.version major) =>
          require (!seenVersion && major = 1)
          skip
          directives true fuel
      | some (.tagHandle handle meaning) =>
          require ((← get).handles.lookup handle).isNone
          modify fun c => { c with tokens := c.tokens.tail, handles := (handle, meaning) :: c.handles }
          directives seenVersion fuel
      | some .directive => skip; directives seenVersion fuel
      | _ => modify fun c => { c with handles := c.handles ++ defaultHandles }

def isDirective : Option Token → Bool
  | some (.version _) | some (.tagHandle _ _) | some .directive => true
  | _ => false

def skipEnds : Nat → Composer Unit
  | 0 => pure ()
  | fuel + 1 => do if ← accept .documentEnd then skipEnds fuel

/-- The only document of a file. A file without one has nothing. -/
def document (fuel : Nat) : Composer (Option Node) := do
  let t ← peek
  if t.isNone then return none
  let explicit := t = some .documentStart || isDirective t
  directives false fuel
  if explicit then expect .documentStart
  let t ← peek
  let isEmpty := t.isNone || t = some .documentStart || t = some .documentEnd || isDirective t
  let n ← if explicit && isEmpty then pure .empty else node true false fuel
  skipEnds fuel
  require (← peek).isNone
  return some n

end Composer

/-- The tree of a text. -/
def node? (text : List Char) : Option (Option Node) := do
  let tokens ← tokens? text
  let (n, _) ← Composer.document (4 * tokens.length + 4) { tokens }
  return n

end Pseudonym.Yaml
