import Pseudonym.Tree.Node
import Pseudonym.Tree.Rules

namespace Pseudonym.Convert

open Text (Bytes)
open Rules (Context)

/-- The kinds of identifiers, by the type of the leaf. -/
def identifierKind? (type : String) : Option Kind :=
  [("identifier", Kind.identifier), ("property_identifier", .propertyIdentifier),
    ("shorthand_property_identifier", .shorthandProperty),
    ("shorthand_property_identifier_pattern", .shorthandProperty),
    ("private_property_identifier", .privateProperty), ("type_identifier", .typeIdentifier),
    ("statement_identifier", .label)].lookup type

def commentTypes : List String := ["comment", "html_comment"]

/-- Tags and attributes, whose names are no identifiers. -/
def tagTypes : List String :=
  ["jsx_opening_element", "jsx_closing_element", "jsx_self_closing_element", "jsx_attribute"]

def tagNameTypes : List String :=
  ["identifier", "property_identifier", "member_expression", "nested_identifier",
    "jsx_namespace_name"]

/-- Whether a child belongs to the name of a tag. -/
def inTagName (inName : Bool) (parent child : ParseNode) : Bool :=
  inName || (tagTypes.contains parent.type && tagNameTypes.contains child.type)

/-- An identifier by its text. The mark of a private name stays in front of what is replaced. -/
def identifierNode (kind : Kind) (n : ParseNode) (text : String) : Node :=
  let (sigil, name) := match kind, text.toList with
    | .privateProperty, '#' :: rest => ("#", String.ofList rest)
    | _, _ => ("", text)
  .mk kind n.type n.start n.stop (if name.isEmpty then .null else .text name) sigil []

/-- The node without its children. -/
def makeNode (source : Bytes) (inName : Bool) (n : ParseNode) : Except Error Node :=
  let plain (kind : Kind) : Except Error Node := .ok (.mk kind n.type n.start n.stop .null "" [])
  if commentTypes.contains n.type then plain .comment
  else if !n.children.isEmpty then plain (if inName then .tagName else .inner)
  else
    match identifierKind? n.type with
    | none => plain .token
    | some kind =>
        if inName then plain .tagName
        else (Rules.textOf source n).map (identifierNode kind n)

variable (source : Bytes) (profile : Profile)

/-- Checks a node in its context, then makes it. -/
def visit (inName : Bool) (c : Context) (n : ParseNode) : Except Error Node := do
  Rules.checkNode source profile c n
  makeNode source inName n

mutual

def convertRec (inName : Bool) (c : Context) : ParseNode → Except Error Node
  | .mk t s e row col nm ms f cs => do
      let n := ParseNode.mk t s e row col nm ms f cs
      let shell ← visit source profile inName c n
      let children ← convertAllRec n inName (c.inside t) cs
      pure (shell.withChildren children)

def convertAllRec (parent : ParseNode) (inName : Bool) (c : Context) :
    List ParseNode → Except Error (List Node)
  | [] => .ok []
  | n :: ns => do
      let node ← convertRec (inTagName inName parent n) c n
      let nodes ← convertAllRec parent inName c ns
      pure (node :: nodes)

end

/-- A node that waits for its turn. -/
structure Task where
  node : ParseNode
  inName : Bool
  context : Context

def Task.children (t : Task) : List Task :=
  t.node.children.map fun child =>
    ⟨child, inTagName t.inName t.node child, t.context.inside t.node.type⟩

/-- The list of children at an address: the numbers of the nodes on the way to it, from the outermost
list on. -/
def listAt (nodes : List Node) : List Nat → List Node
  | [] => nodes
  | i :: path =>
      match nodes[i]? with
      | some n => listAt n.children path
      | none => []

/-- Puts a node at the end of the list at an address. -/
def appendAt (n : Node) (nodes : List Node) : List Nat → List Node
  | [] => nodes ++ [n]
  | i :: path => nodes.modify i fun m => m.withChildren (appendAt n m.children path)

/-- A task on the stack, with the address of the list that its node goes to. -/
structure Entry where
  task : Task
  place : List Nat

/-- Puts tasks on a stack, the last of them first. -/
def push (place : List Nat) (tasks : List Task) (stack : List Entry) : List Entry :=
  tasks.foldr (fun t below => ⟨t, place⟩ :: below) stack

def weight (stack : List Entry) : Nat := ParseNode.sizeAll (stack.map (·.task.node))

theorem push_eq (place : List Nat) (tasks : List Task) (stack : List Entry) :
    push place tasks stack = tasks.map (⟨·, place⟩) ++ stack := by
  induction tasks with
  | nil => rfl
  | cons t tasks ih => exact congrArg (⟨t, place⟩ :: ·) ih

theorem weight_push (place : List Nat) (e : Entry) (stack : List Entry) :
    weight (push place e.task.children stack) < weight (e :: stack) := by
  have h : e.task.children.map (·.node) = e.task.node.children := by
    simp [Task.children, Function.comp_def]
  simp only [weight, push_eq, List.map_append, List.map_map, Function.comp_def, h,
    ParseNode.sizeAll_append, List.map_cons, ParseNode.sizeAll, ParseNode.size_eq]
  omega

/-- Works a stack off, up to the first node that is rejected. A node goes to the end of its list as
soon as it is made, and its children are to go to the list below it. -/
def build : List Entry → List Node → Except Error (List Node)
  | [], nodes => .ok nodes
  | e :: stack, nodes => do
      let node ← visit source profile e.task.inName e.task.context e.task.node
      let place := e.place ++ [(listAt nodes e.place).length]
      build (push place e.task.children stack) (appendAt node nodes e.place)
termination_by stack => weight stack
decreasing_by exact weight_push _ e stack

def convert (root : ParseNode) : Except Error Node := do
  let nodes ← build source profile [⟨⟨root, false, {}⟩, []⟩] []
  pure (nodes.headD default)

end Pseudonym.Convert
