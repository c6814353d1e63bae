import Pseudonym.Grammar.Rule

namespace Pseudonym.Grammar

inductive Symbol where
  | terminal (index : Nat)
  | rule (index : Nat)
  deriving DecidableEq, Repr, Inhabited

structure Step where
  symbol : Symbol
  binding : Binding := .unstated
  side : Option Side := none
  as : Option Alias := none
  field : Option String := none
  anyWord : Bool := false
  deriving DecidableEq, Repr, Inhabited

/-- One way to build a construct. The weight decides between complete readings. -/
structure Alternative where
  steps : List Step
  weight : Int := 0
  deriving Repr, Inhabited

namespace Alternative

/-- The weight that is further from zero, the first of two equal ones. -/
def heavier (a b : Int) : Int := if b.natAbs > a.natAbs then b else a

def append (a b : Alternative) : Alternative := ⟨a.steps ++ b.steps, heavier a.weight b.weight⟩

def mapLast (f : Step → Step) (a : Alternative) : Alternative :=
  match a.steps.reverse with
  | [] => a
  | s :: rest => { a with steps := (f s :: rest).reverse }

end Alternative

section Repeats

variable {τ : Type} [DecidableEq τ]

/-- Takes repetitions out of a rule. A repetition is a rule of its own, once for each body. -/
def liftRepeats : Rule τ → StateM (List (String × Rule τ)) (Rule τ)
  | .both a b => return .both (← liftRepeats a) (← liftRepeats b)
  | .either a b => return .either (← liftRepeats a) (← liftRepeats b)
  | .field n a => return .field n (← liftRepeats a)
  | .renamed n a => return .renamed n (← liftRepeats a)
  | .bound b s a => return .bound b s (← liftRepeats a)
  | .weighted w a => return .weighted w (← liftRepeats a)
  | .anyWord a => return .anyWord (← liftRepeats a)
  | .many a => do
      let body ← liftRepeats a
      let known ← get
      match known.find? (fun entry => entry.2 = body) with
      | some (name, _) => return .symbol name
      | none =>
          let name := "*" ++ toString known.length
          set (known ++ [(name, body)])
          return .symbol name
  | r => return r

def liftAll : List (String × Rule τ) → StateM (List (String × Rule τ)) (List (String × Rule τ))
  | [] => return []
  | (name, r) :: rest => do
      let r ← liftRepeats r
      return (name, r) :: (← liftAll rest)

/-- A repetition is one body, or a shorter repetition and a body. -/
def repetition (entry : String × Rule τ) : String × Rule τ :=
  (entry.1, .either entry.2 (.both (.symbol entry.1) entry.2))

end Repeats

/-- What surrounds a part of a rule. -/
structure Place where
  binding : Binding := .unstated
  side : Option Side := none
  as : Option Alias := none
  field : Option String := none
  anyWord : Bool := false

/-- What the names of a grammar stand for. Inlined rules are given by their alternatives. -/
structure Scope (τ : Type) where
  terminal : τ → Nat
  rule : String → Nat
  inlined : List (String × List Alternative)

namespace Scope

variable {τ : Type}

def step (place : Place) (s : Symbol) : Step :=
  ⟨s, place.binding, place.side, place.as, place.field, place.anyWord⟩

def Step.rename (place : Place) (s : Step) : Step :=
  { s with as := place.as <|> s.as, field := place.field <|> s.field,
           anyWord := place.anyWord || s.anyWord }

def Step.rebind (place : Place) (s : Step) : Step :=
  { s with binding := if s.binding = Binding.unstated then place.binding else s.binding,
           side := s.side <|> place.side }

/-- An inlined part takes the names of its place, and at its end the binding of its place. -/
def settle (place : Place) (a : Alternative) : Alternative :=
  Alternative.mapLast (Step.rebind place) { a with steps := a.steps.map (Step.rename place) }

def alternatives (scope : Scope τ) (place : Place) (atEnd : Bool) : Rule τ → List Alternative
  | .blank => [⟨[], 0⟩]
  | .token t => [⟨[step place (.terminal (scope.terminal t))], 0⟩]
  | .symbol name =>
      match scope.inlined.lookup name with
      | some bodies => bodies.map (settle place)
      | none => [⟨[step place (.rule (scope.rule name))], 0⟩]
  | .both a b =>
      let firsts := alternatives scope place false a
      let seconds := alternatives scope place atEnd b
      firsts.flatMap fun x => seconds.map fun y => x.append y
  | .either a b => alternatives scope place atEnd a ++ alternatives scope place atEnd b
  | .many a => alternatives scope place atEnd a
  | .field n a => alternatives scope { place with field := some n } atEnd a
  | .renamed n a => alternatives scope { place with as := some n } atEnd a
  | .bound b s a =>
      let inner := alternatives scope { place with binding := b, side := s <|> place.side } atEnd a
      if atEnd then inner
      else inner.map (·.mapLast fun x => { x with binding := place.binding, side := place.side })
  | .weighted w a =>
      (alternatives scope place atEnd a).map fun x =>
        { x with weight := Alternative.heavier w x.weight }
  | .anyWord a => alternatives scope { place with anyWord := true } atEnd a

/-- Spells out inlined rules that use each other up to the given depth. -/
def inlining (scope : Scope τ) (bodies : List (String × Rule τ)) : Nat → Scope τ
  | 0 => scope
  | depth + 1 =>
      let inner := inlining scope bodies depth
      { scope with inlined := bodies.map fun b => (b.1, inner.alternatives {} true b.2) }

end Scope

end Pseudonym.Grammar
