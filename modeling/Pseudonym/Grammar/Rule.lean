namespace Pseudonym.Grammar

/-- Which of two equal readings a rule prefers: the one that groups to the left or to the right. -/
inductive Side where
  | left
  | right
  deriving DecidableEq, Repr, Inhabited

/-- How tightly a rule binds: not stated, a number, or a name ranked by the grammar. -/
inductive Binding where
  | unstated
  | level (n : Int)
  | named (name : String)
  deriving DecidableEq, Repr, Inhabited

/-- The name under which a part appears in the tree instead of its own. -/
structure Alias where
  name : String
  isNamed : Bool
  deriving DecidableEq, Repr, Inhabited

/-- A grammar rule over terminals `τ`. -/
inductive Rule (τ : Type) where
  | blank
  | token (t : τ)
  | symbol (name : String)
  | both (first second : Rule τ)
  | either (first second : Rule τ)
  | many (body : Rule τ)
  | field (name : String) (body : Rule τ)
  | renamed (as : Alias) (body : Rule τ)
  | bound (binding : Binding) (side : Option Side) (body : Rule τ)
  | weighted (weight : Int) (body : Rule τ)
  | anyWord (body : Rule τ)
  deriving DecidableEq, Repr, Inhabited

namespace Rule

variable {τ : Type}

def seq : List (Rule τ) → Rule τ
  | [] => blank
  | [r] => r
  | r :: rs => both r (seq rs)

def choice : List (Rule τ) → Rule τ
  | [] => blank
  | [r] => r
  | r :: rs => either r (choice rs)

def opt (r : Rule τ) : Rule τ := either r blank

/-- Any number of times, also none. -/
def star (r : Rule τ) : Rule τ := opt (many r)

def sepBy1 (separator r : Rule τ) : Rule τ := both r (star (both separator r))

def sepBy (separator r : Rule τ) : Rule τ := opt (sepBy1 separator r)

/-- Renamed to a named node. -/
def called (name : String) (r : Rule τ) : Rule τ := renamed ⟨name, true⟩ r

def ranked (name : String) (r : Rule τ) : Rule τ := bound (.named name) none r

def leftmost (name : String) (r : Rule τ) : Rule τ := bound (.named name) (some .left) r

def rightmost (name : String) (r : Rule τ) : Rule τ := bound (.named name) (some .right) r

def toLeft (r : Rule τ) : Rule τ := bound .unstated (some .left) r

def toRight (r : Rule τ) : Rule τ := bound .unstated (some .right) r

end Rule

/-- An entry of a ranking: a named binding, or a rule by its own name. -/
inductive Rank where
  | binding (name : String)
  | rule (name : String)
  deriving DecidableEq, Repr, Inhabited

/-- The rules of a language, in order; the first is the start rule. -/
structure RuleSet (τ : Type) where
  rules : List (String × Rule τ)
  /-- Rules that are replaced by their bodies wherever they are used. -/
  inlined : List String
  /-- Rules, other than those named with an underscore, that leave no node of their own. -/
  transparent : List String
  /-- Rankings, each from the tightest to the loosest. -/
  rankings : List (List Rank)

end Pseudonym.Grammar
