import Pseudonym.Grammar.Table

namespace Pseudonym.Grammar

structure Item where
  point : Nat
  /-- The terminals that may come after the rule. -/
  ahead : TokenSet
  deriving DecidableEq, Inhabited

/-- A state of the automaton. -/
inductive State where
  | mk (key : UInt64) (kernel : List Item) (valid : TokenSet)
      (symbols : Array Symbol) (targets : Array (Thunk State))

namespace State

def key : State → UInt64
  | mk k _ _ _ _ => k

def kernel : State → List Item
  | mk _ k _ _ _ => k

/-- The terminals for which the state has something to do. -/
def valid : State → TokenSet
  | mk _ _ v _ _ => v

instance : Inhabited State := ⟨mk 0 [] 0 #[] #[]⟩

def same (s s' : State) : Bool := s.key == s'.key && s.kernel == s'.kernel

def next? : State → Symbol → Option State
  | mk _ _ _ symbols targets, s =>
      match symbols.findIdx? (· == s) with
      | some i => targets[i]?.map Thunk.get
      | none => none

end State

inductive Action where
  | shift (target : State)
  | reduce (point : Nat)
  deriving Inhabited

namespace Table

variable {τ : Type} (t : Table τ)

def point (i : Nat) : Point := t.points.getD i default

/-- What may be in progress in the state with the given kernel. -/
def closure (kernel : List Item) : List Item :=
  let aheads : Array (Option TokenSet) := kernel.foldl
    (fun acc item =>
      (t.point item.point).next.foldl
        (fun acc (s, target) =>
          match s.symbol with
          | .terminal _ => acc
          | .rule r =>
              let after := t.nexts.getD target 0 |||
                (if (t.point target).ends.isSome then item.ahead else 0)
              match t.reach[r]? with
              | none => acc
              | some reach =>
                  reach.get.foldl
                    (fun acc c => acc.modify c.rule fun old =>
                      some (old.getD 0 ||| c.follow ||| (if c.last then after else 0)))
                    acc)
        acc)
    (Array.replicate t.heads.size none)
  kernel ++ (List.range aheads.size).filterMap fun i =>
    (aheads.getD i none).map fun ahead => ⟨i, ahead⟩

def symbolCode : Symbol → Nat
  | .terminal i => i
  | .rule i => t.terminals.size + i

/-- The kernels of the successors, by symbol. -/
def successors (items : List Item) : List (Symbol × List Item) :=
  let slots : Array (Option (Symbol × List Item)) :=
    Array.replicate (t.terminals.size + t.heads.size) none
  let slots := items.foldl
    (fun acc item =>
      (t.point item.point).next.foldl
        (fun acc (s, target) => acc.modify (t.symbolCode s.symbol) fun old =>
          some (s.symbol, ⟨target, item.ahead⟩ :: (old.map (·.2)).getD []))
        acc)
    slots
  slots.toList.filterMap id

def itemBefore (a b : Item) : Bool :=
  let da := (t.point a.point).depth
  let db := (t.point b.point).depth
  da < db || (da == db && a.point ≤ b.point)

def keyOf (kernel : List Item) : UInt64 :=
  kernel.foldl (fun h i => mixHash (mixHash h (hash i.point)) (hash i.ahead)) 7

def validOf (items : List Item) : TokenSet :=
  items.foldl
    (fun acc i =>
      let p := t.point i.point
      acc ||| t.nexts.getD i.point 0 ||| (if p.ends.isSome then i.ahead else 0))
    0

/-- The state with the given kernel. Paths longer than `fuel` end in an empty state. -/
def state : Nat → List Item → State
  | 0, _ => default
  | fuel + 1, kernel =>
      let items := t.closure kernel
      let next := (t.successors items).map fun (s, k) => (s, k.mergeSort t.itemBefore)
      .mk (keyOf kernel) kernel (t.validOf items) (next.map (·.1)).toArray
        (next.map fun (_, k) => Thunk.mk fun _ => state fuel k).toArray

/-- The state before any text. -/
def start : State := t.state 1000000000 [⟨0, TokenSet.single t.terminals.size⟩]

def rankMatches (binding : Binding) (rules : List Nat) : Rank → Bool
  | .binding name => binding == .named name
  | .rule name => rules.any fun r => (t.heads.getD r default).name == name

def compareIn (left : Binding) (leftRules : List Nat) (right : Binding) (rightRules : List Nat)
    (sawLeft sawRight : Bool) : List Rank → Option Ordering
  | [] => none
  | r :: rest =>
      if t.rankMatches left leftRules r then
        if sawRight then some .lt else compareIn left leftRules right rightRules true sawRight rest
      else if t.rankMatches right rightRules r then
        if sawLeft then some .gt else compareIn left leftRules right rightRules sawLeft true rest
      else compareIn left leftRules right rightRules sawLeft sawRight rest

/-- Which of two competing bindings is the tighter one, as far as the grammar says. -/
def compare (left : Binding) (leftRules : List Nat) (right : Binding) (rightRules : List Nat) :
    Ordering :=
  let level : Binding → Int := fun b => match b with
    | .level n => n
    | _ => 0
  let plain : Binding → Bool := fun b => match b with
    | .named _ => false
    | _ => true
  if plain left && plain right && (level left != 0 || level right != 0) then
    Ord.compare (level left) (level right)
  else
    (t.rankings.findSome? (t.compareIn left leftRules right rightRules false false)).getD .eq

/-- The reductions that compete for one terminal. They bind equally tightly. -/
structure Reductions where
  points : List Nat := []
  binding : Binding := .unstated
  rules : List Nat := []
  left : Bool := false
  right : Bool := false
  plain : Bool := false

namespace Reductions

def add (rs : Reductions) (i : Nat) (p : Point) : Reductions :=
  { points := rs.points ++ [i], binding := p.binding, rules := rs.rules ++ [p.rule]
    left := rs.left || p.side == some .left
    right := rs.right || p.side == some .right
    plain := rs.plain || p.side == none }

end Reductions

def reductions (kernel : List Item) (terminal : Nat) : Reductions :=
  kernel.foldl
    (fun rs item =>
      let p := t.point item.point
      if p.ends.isSome && item.ahead.testBit terminal then
        if rs.points.isEmpty then rs.add item.point p
        else
          match t.compare p.binding [p.rule] rs.binding rs.rules with
          | .gt => Reductions.add {} item.point p
          | .eq => rs.add item.point p
          | .lt => rs
      else rs)
    {}

/-- Whether the rules are all one and the same repetition. Such a conflict is no choice. -/
def sameRepetition : List Nat → Bool
  | [] => false
  | r :: rest => (t.heads.getD r default).repetition && rest.all (· == r)

/-- The actions of a state for a terminal: reductions first, then the shift. More than one action
means that more than one reading is followed. -/
def actions (s : State) (terminal : Nat) : List Action :=
  let rs := t.reductions s.kernel terminal
  let reduces := rs.points.map Action.reduce
  match s.next? (.terminal terminal) with
  | none => reduces
  | some target =>
      if rs.points.isEmpty then [.shift target]
      else
        let going := (s.kernel.map fun item => (item, t.point item.point)).filter fun (item, p) =>
          p.depth > 0 && (t.nexts.getD item.point 0).testBit terminal
        let orders := going.map fun (_, p) => t.compare p.binding [p.rule] rs.binding rs.rules
        let more := orders.contains .gt
        let less := orders.contains .lt
        if t.sameRepetition (rs.rules ++ going.map (·.2.rule)) then reduces
        else if more && !less then [.shift target]
        else if less && !more then reduces
        else if !less && !more && rs.left && !rs.right && !rs.plain then reduces
        else if !less && !more && rs.right && !rs.left && !rs.plain then [.shift target]
        else reduces ++ [.shift target]

end Table

end Pseudonym.Grammar
