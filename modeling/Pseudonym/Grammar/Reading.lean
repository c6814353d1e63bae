import Pseudonym.Grammar.Stack

namespace Pseudonym.Grammar

structure Token where
  terminal : Nat
  start : Position
  stop : Position
  rest : List Char
  /-- May stand anywhere and is no part of any rule. -/
  extra : Bool := false
  /-- For a keyword: the terminal that would spell it as a name. -/
  word : Option Nat := none
  deriving Inhabited

def Token.tree (token : Token) : Tree := .leaf token.terminal token.extra token.start token.stop

/-- How the next token is found: by the terminals that are valid where the text stands. -/
structure Lexer where
  next : TokenSet → Position → List Char → Option Token
  /-- Keywords that are never names, except where every word may be one. -/
  reserved : TokenSet

structure Reading where
  stack : Stack
  position : Position
  rest : List Char
  /-- Unset once the text cannot go on so. -/
  live : Bool := true
  deriving Inhabited

namespace Reading

variable {τ : Type} (t : Table τ)

def meets (a b : Reading) : Bool := a.live && b.live && a.stack.meets b.stack

def join (a b : Reading) : Reading := { a with stack := a.stack.join t b.stack }

/-- Puts a reading after the others, or joins it with one that it meets. A weightier reading goes
to the front of a lighter one. -/
def settleOne : List Reading → Reading → List Reading
  | [], r => [r]
  | a :: rest, r =>
      if a.meets r then a.join t r :: rest
      else if r.stack.weight > a.stack.weight then r :: settleOne rest a
      else a :: settleOne rest r

def settle (rs : Array Reading) : Array Reading :=
  ((rs.toList.filter (·.live)).foldl (settleOne t) []).toArray

/-- Adds a reading at the end, or joins it with one that it meets, other than the one at `own`. -/
def add (rs : Array Reading) (own : Nat) (r : Reading) : Array Reading :=
  match (List.range rs.size).find? fun j => j ≠ own && (rs.getD j default).meets r with
  | some j => rs.modify j fun a => a.join t r
  | none => rs.push r

/-- The readings after a reduction: one for each stack below the parts. Extras at the end stay
outside. -/
def reduced (start : State) (r : Reading) (point : Nat) : List Reading :=
  let p := t.point point
  (Stack.groups (r.stack.take p.depth)).filterMap fun (below, choices) =>
    let parted := choices.map fun trees =>
      let extras := (trees.reverse.takeWhile Tree.isExtra).reverse
      (trees.take (trees.length - extras.length), extras)
    match parted with
    | [] => none
    | (kids, extras) :: others =>
        let tree := others.foldl (fun best o => Tree.better t best (Tree.ofKids t r.position point o.1))
          (Tree.ofKids t r.position point kids)
        ((below.state start).next? (.rule p.rule)).map fun s =>
          { r with stack := extras.foldl (fun st e => st.push s e) (below.push s tree) }

def shift (r : Reading) (s : State) (token : Token) : Reading :=
  { r with stack := r.stack.push s token.tree, position := token.stop, rest := token.rest }

/-- The whole text as one tree, along every way down the stack. -/
def finish (r : Reading) (point : Nat) : List Tree :=
  (Stack.wholes 1000000000 [(r.stack, [])]).map fun kids =>
    match Tree.ofKids t r.position point kids with
    | .node key point weight _ _ kids => .node key point weight .origin r.position kids
    | tree => tree

end Reading

section Run

variable {τ : Type} (t : Table τ) (start : State) (lexer : Lexer)

structure Progress where
  readings : Array Reading := #[]
  finished : Option Tree := none
  /-- How far the foremost reading has come. -/
  last : Nat := 0

namespace Progress

def finishWith (p : Progress) (trees : List Tree) : Progress :=
  { p with
    finished := trees.foldl
      (fun best new => match best with
        | some old => some (Tree.better t old new)
        | none => some new)
      p.finished }

def stop (p : Progress) (i : Nat) : Progress :=
  { p with readings := p.readings.modify i fun r => { r with live := false } }

/-- Applies one reduction of the reading at `i`. Gives the place of the first new reading. -/
def reduce (p : Progress) (i point : Nat) : Progress × Option Nat :=
  let r := p.readings.getD i default
  let size := p.readings.size
  let readings := (r.reduced t start point).foldl (fun rs new => Reading.add t rs i new) p.readings
  ({ p with readings }, if readings.size > size then some size else none)

/-- Moves the reading at `source` to the place `target`. -/
def move (p : Progress) (source target : Nat) : Progress :=
  { p with
    readings := (p.readings.set! target (p.readings.getD source default)).eraseIdxIfInBounds source }

/-- Applies actions for a token to the reading at `i` until it is shifted. Readings that split off
are put at the end. -/
def advance : Nat → Progress → Nat → Token → Progress
  | 0, p, _, _ => p
  | fuel + 1, p, i, token =>
      let r := p.readings.getD i default
      let s := r.stack.state start
      match t.actions s token.terminal with
      | [] =>
          let switched := do
            let w ← token.word
            guard (s.valid.testBit t.anyWordMark || !lexer.reserved.testBit token.terminal)
            guard (s.valid.testBit w)
            return { token with terminal := w, word := none }
          match switched with
          | some token => advance fuel p i token
          | none => p.stop i
      | actions =>
          let (p, shifted, newest) := actions.foldl
            (fun (p, shifted, newest) a => match a with
              | .shift s =>
                  ({ p with readings := p.readings.modify i fun _ => r.shift s token }, true, newest)
              | .reduce point =>
                  if (t.point point).rule = 0 then
                    ((p.finishWith t (r.finish t point)).stop i, true, newest)
                  else
                    let (p, new) := p.reduce t start i point
                    (p, shifted, new <|> newest))
            (p, false, none)
          if shifted then p
          else
            match newest with
            | some j => advance fuel (p.move j i) i token
            | none => p.stop i

/-- Reads one token with the reading at `i` and shifts it. -/
def step (p : Progress) (i : Nat) : Progress :=
  let r := p.readings.getD i default
  let s := r.stack.state start
  match lexer.next s.valid r.position r.rest with
  | none => p.stop i
  | some token =>
      if token.extra then { p with readings := p.readings.modify i fun r => r.shift s token }
      else advance t start lexer 1000000000 p i token

/-- Takes every reading from `i` on past the place where the foremost one stands. -/
def round : Nat → Progress → Nat → Progress
  | 0, p, _ => p
  | fuel + 1, p, i =>
      if i < p.readings.size then
        if (p.readings.getD i default).live then
          let p := p.step t start lexer i
          let r := p.readings.getD i default
          let at_ := r.position.offset
          if r.live && (at_ > p.last || (i > 0 && at_ == p.last)) then
            round fuel { p with last := at_ } (i + 1)
          else round fuel p i
        else round fuel p (i + 1)
      else p

def rounds : Nat → Progress → Option Tree
  | 0, p => p.finished
  | fuel + 1, p =>
      if p.readings.isEmpty then p.finished
      else
        let p := p.round t start lexer 1000000000 0
        rounds fuel { p with readings := Reading.settle t p.readings }

end Progress

/-- The tree of a text, if the grammar admits it. -/
def read (text : List Char) : Option Tree :=
  Progress.rounds t start lexer 1000000000 { readings := #[⟨.base, .origin, text, true⟩] }

end Run

end Pseudonym.Grammar
