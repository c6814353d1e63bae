import Pseudonym.Grammar.Production
import Std.Data.HashMap

namespace Pseudonym.Grammar

/-- A set of terminals, one bit each. -/
abbrev TokenSet := Nat

namespace TokenSet

def single (i : Nat) : TokenSet := 1 <<< i

end TokenSet

/-- A place inside a rule. -/
structure Point where
  rule : Nat
  /-- How many parts lie before it. -/
  depth : Nat
  binding : Binding := .unstated
  side : Option Side := none
  /-- How the parts before it are called, last part first. -/
  labels : List (Option Alias × Option String) := []
  next : List (Step × Nat) := []
  /-- Set where the rule may end, to the weight of the alternative. -/
  ends : Option Int := none
  deriving Inhabited

/-- How the rule at hand may begin: with which rule, what follows that one, and whether the rule at
hand may end after it. -/
structure Corner where
  rule : Nat
  follow : TokenSet
  last : Bool
  deriving Inhabited

structure Reach where
  rule : Nat
  /-- Terminals that follow it whatever comes after the rule it was reached from. -/
  follow : TokenSet
  /-- Whether it can also be followed by what comes after that rule. -/
  last : Bool
  deriving Inhabited

structure Head where
  name : String
  /-- Whether it leaves a node of its own in the tree. -/
  visible : Bool
  repetition : Bool
  deriving Inhabited

structure Table (τ : Type) where
  terminals : Array τ
  heads : Array Head
  points : Array Point
  firsts : Array TokenSet
  /-- The terminals that may come next at each point. -/
  nexts : Array TokenSet
  reach : Array (Thunk (List Reach))
  rankings : List (List Rank)

namespace Point

/-- Adds an alternative below the point `at_`. -/
def insert (points : Array Point) (at_ : Nat) (weight : Int) : List Step → Array Point
  | [] => points.modify at_ fun p => { p with ends := p.ends <|> some weight }
  | s :: rest =>
      let here := points.getD at_ default
      match here.next.find? (fun e => e.1 = s) with
      | some (_, target) => insert points target weight rest
      | none =>
          let target := points.size
          let point : Point :=
            { rule := here.rule, depth := here.depth + 1, binding := s.binding, side := s.side,
              labels := (s.as, s.field) :: here.labels }
          let points := (points.modify at_ fun p => { p with next := p.next ++ [(s, target)] }).push point
          insert points target weight rest

end Point

namespace Table

section First

variable (word : Nat) (anyWord : TokenSet) (firsts : Array TokenSet)

/-- The terminals with which a step may begin. A step that admits every word is marked. -/
def firstOf (s : Step) : TokenSet :=
  match s.symbol with
  | .terminal i => if i = word ∧ s.anyWord then TokenSet.single i ||| anyWord else TokenSet.single i
  | .rule i => firsts.getD i 0

def firstOfAll (next : List (Step × Nat)) : TokenSet :=
  next.foldl (fun acc e => acc ||| firstOf word anyWord firsts e.1) 0

end First

def growFirsts (word : Nat) (anyWord : TokenSet) (points : Array Point) (roots : Array Nat)
    (firsts : Array TokenSet) : Array TokenSet :=
  (List.range roots.size).foldl
    (fun acc i => acc.modify i fun old =>
      old ||| firstOfAll word anyWord acc (points.getD (roots.getD i 0) default).next)
    firsts

/-- Repeats a growing step until nothing changes, at most `n` times. -/
def settle {α : Type} [BEq α] (f : α → α) : Nat → α → α
  | 0, a => a
  | n + 1, a =>
      let b := f a
      if b == a then a else settle f n b

def cornersOf (first : List (Step × Nat) → TokenSet) (points : Array Point) (root : Nat) : List Corner :=
  (points.getD root default).next.filterMap fun e =>
    match e.1.symbol with
    | .terminal _ => none
    | .rule i =>
        let target := points.getD e.2 default
        some ⟨i, first target.next, target.ends.isSome⟩

/-- Adds what the corners of the rules reached so far reach. -/
def growReach (corners : Array (List Corner)) (reached : Array (Option (TokenSet × Bool))) :
    Array (Option (TokenSet × Bool)) :=
  (List.range corners.size).foldl
    (fun acc i =>
      match acc.getD i none with
      | none => acc
      | some (follow, last) =>
          (corners.getD i []).foldl
            (fun acc c => acc.modify c.rule fun old =>
              let (f, l) := old.getD (0, false)
              some (f ||| c.follow ||| (if c.last then follow else 0), l || (c.last && last)))
            acc)
    reached

def reachOf (corners : Array (List Corner)) (rule : Nat) : List Reach :=
  let start := (Array.replicate corners.size none).set! rule (some (0, true))
  let done := settle (growReach corners) (corners.size + 1) start
  (List.range corners.size).filterMap fun i =>
    (done.getD i none).map fun (f, l) => ⟨i, f, l⟩

variable {τ : Type} [DecidableEq τ] [Hashable τ]

def terminalsOf : Rule τ → Array τ → Array τ
  | .blank, acc => acc
  | .symbol _, acc => acc
  | .token t, acc => acc.push t
  | .both a b, acc => terminalsOf b (terminalsOf a acc)
  | .either a b, acc => terminalsOf b (terminalsOf a acc)
  | .many a, acc => terminalsOf a acc
  | .field _ a, acc => terminalsOf a acc
  | .renamed _ a, acc => terminalsOf a acc
  | .bound _ _ a, acc => terminalsOf a acc
  | .weighted _ a, acc => terminalsOf a acc
  | .anyWord a, acc => terminalsOf a acc

/-- Numbers the entries of a list in order of first appearance. -/
def number {α : Type} [BEq α] [Hashable α] (as : List α) : Array α × Std.HashMap α Nat :=
  as.foldl
    (fun (seen, index) a =>
      if index.contains a then (seen, index) else (seen.push a, index.insert a seen.size))
    (#[], ∅)

/-- Prepares a grammar. `extras` are terminals that may stand anywhere, and `word` is the terminal
that spells names. -/
def build (g : RuleSet τ) (extras : List τ) (word : τ) : Table τ :=
  let (plain, repeats) := (liftAll g.rules).run []
  let rules := plain ++ repeats.map repetition
  let used := rules.foldl (fun acc r => terminalsOf r.2 acc) extras.toArray
  let (terminals, terminalIndex) := number used.toList
  let (_, ruleIndex) := number (rules.map (·.1))
  let scope : Scope τ :=
    { terminal := fun t => terminalIndex.getD t 0
      rule := fun n => ruleIndex.getD n 0
      inlined := [] }
  let bodies := rules.filter fun r => g.inlined.contains r.1
  let scope := scope.inlining bodies 6
  let heads : List Head := rules.map fun r =>
    let repetition := r.1.startsWith "*"
    ⟨r.1, !(repetition || r.1.startsWith "_" || g.transparent.contains r.1), repetition⟩
  let start : Array Point := (List.range rules.length).foldl
    (fun acc i => acc.push { rule := i, depth := 0 }) #[]
  let points := rules.foldl
    (fun (i, points) r =>
      let alternatives := scope.alternatives {} true r.2
      (i + 1, alternatives.foldl (fun ps a => Point.insert ps i a.weight a.steps) points))
    (0, start) |>.2
  let roots := (List.range rules.length).toArray
  let wordIndex := terminalIndex.getD word 0
  let anyWord := TokenSet.single (terminals.size + 1)
  let firsts := settle (growFirsts wordIndex anyWord points roots) (rules.length + 1)
    (Array.replicate rules.length 0)
  let corners := roots.map (cornersOf (firstOfAll wordIndex anyWord firsts) points)
  { terminals, heads := heads.toArray, points, firsts
    nexts := points.map fun p => firstOfAll wordIndex anyWord firsts p.next
    reach := roots.map fun r => Thunk.mk fun _ => reachOf corners r
    rankings := g.rankings }

/-- The end of the text, as a terminal. -/
def endOfText (t : Table τ) : Nat := t.terminals.size

/-- Marks sets that admit every word, reserved or not. -/
def anyWordMark (t : Table τ) : Nat := t.terminals.size + 1

end Table

end Pseudonym.Grammar
