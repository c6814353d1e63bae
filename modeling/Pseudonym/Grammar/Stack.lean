import Pseudonym.Grammar.Tree

namespace Pseudonym.Grammar

inductive Stack where
  | base
  /-- Each link is a tree with the stack below it. -/
  | node (key : UInt64) (state : State) (offset : Nat) (weight : Int) (links : List (Tree × Stack))
  deriving Inhabited

namespace Stack

def key : Stack → UInt64
  | base => 0
  | node k _ _ _ _ => k

def state (start : State) : Stack → State
  | base => start
  | node _ s _ _ _ => s

def offset : Stack → Nat
  | base => 0
  | node _ _ o _ _ => o

def weight : Stack → Int
  | base => 0
  | node _ _ _ w _ => w

def links : Stack → List (Tree × Stack)
  | base => []
  | node _ _ _ _ ls => ls

def keyOf (s : State) (links : List (Tree × Stack)) : UInt64 :=
  links.foldl (fun h l => mixHash h (mixHash l.1.key l.2.key)) s.key

def push (below : Stack) (s : State) (t : Tree) : Stack :=
  node (keyOf s [(t, below)]) s t.stop.offset (below.weight + t.weight) [(t, below)]

/-- Whether two stacks stand in the same state at the same place. -/
def meets : Stack → Stack → Bool
  | node _ s o _ _, node _ s' o' _ _ => o == o' && s.same s'
  | base, base => true
  | _, _ => false

variable {τ : Type} (t : Table τ)

/-- Adds a link to those of a node. A link like an older one is joined with it. -/
def joinLink (tree : Tree) (below : Stack) (join : Stack → Stack) :
    List (Tree × Stack) → List (Tree × Stack)
  | [] => [(tree, below)]
  | (tree', below') :: rest =>
      if Tree.alike t tree' tree then
        if below'.key == below.key then
          (if tree.weight > tree'.weight then tree else tree', below') :: rest
        else if below'.meets below then (tree', join below') :: rest
        else (tree', below') :: joinLink tree below join rest
      else (tree', below') :: joinLink tree below join rest

def addLink (s : Stack) (tree : Tree) (below : Stack) (join : Stack → Stack) : Stack :=
  match s with
  | base => base
  | node _ state o w links =>
      let links := joinLink t tree below join links
      node (keyOf state links) state o (max w (below.weight + tree.weight)) links

mutual

/-- Joins two stacks that meet. Where they hold two trees for the same text, the older stays,
unless the newer is weightier. -/
def join (a : Stack) : Stack → Stack
  | base => a
  | node _ _ _ _ links => joinAll a links

def joinAll (a : Stack) : List (Tree × Stack) → Stack
  | [] => a
  | (tree, below) :: rest => joinAll (addLink t a tree below fun b => join b below) rest

end

/-- A way down a stack: the trees taken off, oldest first, and how many are still to be taken. -/
structure Walk where
  here : Stack
  taken : List Tree
  left : Nat

def Walk.down (w : Walk) (link : Tree × Stack) : Walk :=
  ⟨link.2, link.1 :: w.taken, if link.1.isExtra then w.left else w.left - 1⟩

/-- Takes every walk one step down. The first link goes on in place, the others go to the end. -/
def walkStep : List Walk → List Walk × List Walk × List Walk
  | [] => ([], [], [])
  | w :: ws =>
      let (done, ahead, more) := walkStep ws
      if w.left = 0 then (w :: done, ahead, more)
      else
        match w.here.links with
        | [] => (done, ahead, more)
        | l :: ls => (done, w.down l :: ahead, ls.map w.down ++ more)

def walks : Nat → List Walk → List Walk
  | 0, _ => []
  | _ + 1, [] => []
  | fuel + 1, ws =>
      let (done, ahead, more) := walkStep ws
      done ++ walks fuel (ahead ++ more)

/-- All ways to take the given number of trees off a stack. -/
def take (s : Stack) (n : Nat) : List Walk := walks 1000000000 [⟨s, [], n⟩]

/-- A walk joins the group of those that end on the same stack. -/
def addToGroup (w : Walk) : List (Stack × List (List Tree)) → List (Stack × List (List Tree))
  | [] => [(w.here, [w.taken])]
  | (s, ts) :: rest =>
      if s.key == w.here.key then (s, ts ++ [w.taken]) :: rest else (s, ts) :: addToGroup w rest

def groups (ws : List Walk) : List (Stack × List (List Tree)) :=
  ws.foldl (fun gs w => addToGroup w gs) []

/-- The trees down to the bottom, along every way. -/
def wholes : Nat → List (Stack × List Tree) → List (List Tree)
  | 0, _ => []
  | _ + 1, [] => []
  | fuel + 1, (s, taken) :: rest =>
      match s with
      | base => taken :: wholes fuel rest
      | node _ _ _ _ links => wholes fuel (links.map (fun l => (l.2, l.1 :: taken)) ++ rest)

end Stack

end Pseudonym.Grammar
