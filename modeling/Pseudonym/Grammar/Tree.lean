import Pseudonym.Grammar.Automaton
import Pseudonym.Source.Position

namespace Pseudonym.Grammar

inductive Tree where
  | leaf (terminal : Nat) (extra : Bool) (start stop : Position)
  /-- Built by the alternative that ends at `point`. The key tells different trees apart. -/
  | node (key : UInt64) (point : Nat) (weight : Int) (start stop : Position) (kids : List Tree)
  deriving Inhabited

namespace Tree

/-- Set for what may stand anywhere and is no part of a rule. -/
def isExtra : Tree → Bool
  | leaf _ e _ _ => e
  | node .. => false

def weight : Tree → Int
  | leaf .. => 0
  | node _ _ w _ _ _ => w

def start : Tree → Position
  | leaf _ _ s _ => s
  | node _ _ _ s _ _ => s

def stop : Tree → Position
  | leaf _ _ _ e => e
  | node _ _ _ _ e _ => e

def kids : Tree → List Tree
  | leaf .. => []
  | node _ _ _ _ _ kids => kids

def key : Tree → UInt64
  | leaf terminal _ start stop => mixHash (hash terminal) (mixHash (hash start.offset) (hash stop.offset))
  | node k _ _ _ _ _ => k

variable {τ : Type} (t : Table τ)

/-- A tree over the given parts. A tree without parts stands at `here`. -/
def ofKids (here : Position) (point : Nat) (kids : List Tree) : Tree :=
  let start := (kids.head?.map Tree.start).getD here
  let stop := (kids.getLast?.map Tree.stop).getD here
  let key := kids.foldl (fun h k => mixHash h k.key) (hash point)
  let weight := ((t.point point).ends.getD 0) + (kids.map Tree.weight).foldr (· + ·) 0
  .node key point weight start stop kids

/-- Terminals come before rules, and both in the order of the grammar. -/
def rank : Tree → Nat
  | leaf terminal _ _ _ => terminal
  | node _ point _ _ _ _ => t.terminals.size + 2 + (t.point point).rule

mutual

/-- Compares two trees from the top down and from left to right. -/
def compare : Tree → Tree → Ordering
  | a@(leaf ..), b => Ord.compare (a.rank t) (b.rank t)
  | a@(node _ _ _ _ _ kids), b =>
      match b with
      | leaf .. => Ord.compare (a.rank t) (b.rank t)
      | node _ _ _ _ _ kids' =>
          (Ord.compare (a.rank t) (b.rank t)).then
            ((Ord.compare kids.length kids'.length).then (compareAll kids kids'))

def compareAll : List Tree → List Tree → Ordering
  | a :: as, b :: bs => (compare a b).then (compareAll as bs)
  | _, _ => .eq

end

/-- Of two trees for the same text, the one that stays: the weightier, or the one whose rules come
first, or the older. -/
def better (old new : Tree) : Tree :=
  if new.weight > old.weight then new
  else if new.weight < old.weight then old
  else if compare t new old = .lt then new
  else old

/-- Whether two trees look the same from above. -/
def alike (a b : Tree) : Bool :=
  a.key == b.key ||
    (a.rank t == b.rank t && a.start.offset == b.start.offset && a.stop.offset == b.stop.offset &&
      a.kids.length == b.kids.length && a.isExtra == b.isExtra)

end Tree

end Pseudonym.Grammar
