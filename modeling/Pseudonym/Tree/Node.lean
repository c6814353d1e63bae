import Pseudonym.Profile.Basic
import Pseudonym.Text.Utf8

namespace Pseudonym

inductive Kind where
  | identifier
  | propertyIdentifier
  | shorthandProperty
  | privateProperty
  | typeIdentifier
  | label
  | tagName
  | comment
  | token
  | inner
  deriving DecidableEq, Repr, Inhabited

namespace Kind

def name : Kind → String
  | identifier => "identifier"
  | propertyIdentifier => "property_identifier"
  | shorthandProperty => "shorthand_property"
  | privateProperty => "private_property"
  | typeIdentifier => "type_identifier"
  | label => "label"
  | tagName => "jsx_name"
  | comment => "comment"
  | token => "token"
  | inner => "syntax"

def all : List Kind :=
  [identifier, propertyIdentifier, shorthandProperty, privateProperty, typeIdentifier, label, tagName,
    comment, token, inner]

def ofText (text : String) : Except Error Kind :=
  match all.find? fun k => k.name = text with
  | some k => .ok k
  | none => .error (.value (.nodeKind text))

/-- Names of these kinds are replaced. -/
def isRedactable : Kind → Bool
  | identifier | propertyIdentifier | shorthandProperty | privateProperty | typeIdentifier | label =>
      true
  | tagName | comment | token | inner => false

end Kind

/-- A node spans the bytes from `start` up to `stop`. It is written as its sigil and its name, if it
is a leaf that can be renamed. -/
inductive Node where
  | mk (kind : Kind) (type : String) (start stop : Nat) (name : Value) (sigil : String)
      (children : List Node)
  deriving Inhabited

namespace Node

def kind : Node → Kind
  | mk k _ _ _ _ _ _ => k

def type : Node → String
  | mk _ t _ _ _ _ _ => t

def start : Node → Nat
  | mk _ _ s _ _ _ _ => s

def stop : Node → Nat
  | mk _ _ _ e _ _ _ => e

def name : Node → Value
  | mk _ _ _ _ n _ _ => n

def sigil : Node → String
  | mk _ _ _ _ _ p _ => p

def children : Node → List Node
  | mk _ _ _ _ _ _ cs => cs

def withChildren (n : Node) (cs : List Node) : Node :=
  mk n.kind n.type n.start n.stop n.name n.sigil cs

def isLeaf (n : Node) : Bool := n.children.isEmpty

def isRedactable (n : Node) : Bool := n.kind.isRedactable

mutual

/-- The number of nodes. -/
def size : Node → Nat
  | mk _ _ _ _ _ _ cs => sizeAll cs + 1

def sizeAll : List Node → Nat
  | [] => 0
  | n :: ns => size n + sizeAll ns

end

theorem sizeAll_append (xs ys : List Node) : sizeAll (xs ++ ys) = sizeAll xs + sizeAll ys := by
  induction xs with
  | nil => simp [sizeAll]
  | cons n ns ih => simp [sizeAll, ih]; omega

theorem size_eq (n : Node) : n.size = sizeAll n.children + 1 := by
  cases n; rfl

mutual

/-- A node, then its descendants from left to right. -/
def preorder : Node → List Node
  | mk k t s e n p cs => mk k t s e n p cs :: preorderAll cs

def preorderAll : List Node → List Node
  | [] => []
  | n :: ns => preorder n ++ preorderAll ns

end

/-- The nodes below those of a stack, each before its descendants. -/
def nodesFrom : List Node → List Node
  | [] => []
  | n :: stack => n :: nodesFrom (n.children ++ stack)
termination_by stack => sizeAll stack
decreasing_by simp [sizeAll, sizeAll_append, size_eq]

/-- The nodes in document order. -/
def nodes (n : Node) : List Node := nodesFrom [n]

end Node

/-- A tree over the bytes of a source text. -/
structure Tree where
  root : Node
  source : Text.Bytes

namespace Tree

def nodes (t : Tree) : List Node := t.root.nodes

def identifiers (t : Tree) : List Node := t.nodes.filter Node.isRedactable

def nodeCount (t : Tree) : Nat := t.nodes.length

end Tree

end Pseudonym
