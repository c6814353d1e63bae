import Pseudonym.Tree.Node

namespace Pseudonym

open Text (Bytes)

namespace Node

/-- Whether a node is written by its name. -/
def isNamed (n : Node) : Bool := n.isRedactable && n.name.truthy

/-- Why a node cannot be written by its name. -/
def fault? (writable : String → Bool) (n : Node) : Option Error :=
  if n.isNamed then
    match n.name with
    | .text s => if writable s then none else some (.unwritable s)
    | v => if v.display.isSome then none else some (.value .tooManyDigits)
  else none

/-- A leaf as it is written: by its name if it has one that may be replaced, else as it was. -/
def written (source : Bytes) (n : Node) : Bytes :=
  if n.isNamed then Text.encode (n.sigil ++ n.name.display.getD "")
  else Text.slice source n.start n.stop

end Node

namespace Tree

/-- The source from a place on, with the leaves as they are written. A leaf that starts before that
place is left out. -/
def weave (source : Bytes) (cursor : Nat) : List Node → Bytes
  | [] => source.drop cursor
  | n :: ns =>
      if !n.isLeaf || n.start < cursor then weave source cursor ns
      else Text.slice source cursor n.start ++ n.written source ++ weave source n.stop ns

/-- The first leaf that is in the way of that. -/
def fault? (writable : String → Bool) (cursor : Nat) : List Node → Option Error
  | [] => none
  | n :: ns =>
      if !n.isLeaf || n.start < cursor then fault? writable cursor ns
      else (n.fault? writable).or (fault? writable n.stop ns)

/-- The text of a tree, where names may be among those that cannot be written. -/
def print (t : Tree) (writable : String → Bool := fun _ => true) : Except Error String :=
  match fault? writable 0 t.nodes with
  | some e => .error e
  | none => (Text.decode (weave t.source 0 t.nodes)).mapError .decode

end Tree

end Pseudonym
