import Pseudonym.Source.Position

namespace Pseudonym

inductive ParseNode where
  | mk (type : String) (start stop : Nat) (row column : Nat) (isNamed isMissing : Bool)
      (field : Option String) (children : List ParseNode)
  deriving Inhabited

namespace ParseNode

def type : ParseNode → String
  | mk t _ _ _ _ _ _ _ _ => t

/-- Byte offset of the first byte. -/
def start : ParseNode → Nat
  | mk _ s _ _ _ _ _ _ _ => s

/-- Byte offset after the last byte. -/
def stop : ParseNode → Nat
  | mk _ _ e _ _ _ _ _ _ => e

def row : ParseNode → Nat
  | mk _ _ _ r _ _ _ _ _ => r

def column : ParseNode → Nat
  | mk _ _ _ _ c _ _ _ _ => c

def isNamed : ParseNode → Bool
  | mk _ _ _ _ _ n _ _ _ => n

/-- Set for a construct that the reader had to make up. -/
def isMissing : ParseNode → Bool
  | mk _ _ _ _ _ _ m _ _ => m

/-- The part it plays in its parent. -/
def field : ParseNode → Option String
  | mk _ _ _ _ _ _ _ f _ => f

def children : ParseNode → List ParseNode
  | mk _ _ _ _ _ _ _ _ cs => cs

def namedChildren (n : ParseNode) : List ParseNode := n.children.filter isNamed

def childByField? (n : ParseNode) (name : String) : Option ParseNode :=
  n.children.find? fun c => c.field == some name

mutual

/-- The number of nodes. -/
def size : ParseNode → Nat
  | mk _ _ _ _ _ _ _ _ cs => sizeAll cs + 1

def sizeAll : List ParseNode → Nat
  | [] => 0
  | n :: ns => size n + sizeAll ns

end

theorem sizeAll_append (xs ys : List ParseNode) :
    sizeAll (xs ++ ys) = sizeAll xs + sizeAll ys := by
  induction xs with
  | nil => simp [sizeAll]
  | cons n ns ih => simp [sizeAll, ih]; omega

theorem size_eq (n : ParseNode) : n.size = sizeAll n.children + 1 := by
  cases n; rfl

end ParseNode

end Pseudonym
