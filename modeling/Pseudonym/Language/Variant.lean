import Pseudonym.Language.TypeScript
import Pseudonym.Language.Lexer
import Pseudonym.Source.ParseNode

namespace Pseudonym.Language

open Grammar (Table Tree State Alias)

structure Reader where
  table : Table Terminal
  start : State
  lexicon : Lexicon

namespace Reader

def ofGrammar (g : Grammar.RuleSet Terminal) (reserved : List String) (typed : Bool) : Reader :=
  let table := Table.build g [.comment, .htmlComment] .identifier
  { table, start := table.start, lexicon := Lexicon.ofTable table reserved typed }

variable (r : Reader)

def labelOf (terminal : Nat) : Option Alias :=
  (r.table.terminals[terminal]?).bind Terminal.label

def leafNode (label : Alias) (field : Option String) (start stop : Position)
    (children : List ParseNode) : ParseNode :=
  .mk label.name start.offset stop.offset start.row start.column label.isNamed false field children

mutual

/-- Puts the nodes of a tree in front of a list. A tree without a name leaves its children. -/
def nodes (as : Option Alias) (field : Option String) : Tree → List ParseNode → List ParseNode
  | .leaf terminal _ start stop, acc =>
      match as <|> r.labelOf terminal with
      | some label => leafNode label field start stop [] :: acc
      | none => acc
  | .node _ point _ start stop kids, acc =>
      let p := r.table.point point
      let head := r.table.heads.getD p.rule default
      let own : Option Alias := if head.visible then some ⟨head.name, true⟩ else none
      match as <|> own with
      | some label => leafNode label field start stop (nodesOf p.labels.reverse none kids []) :: acc
      | none => nodesOf p.labels.reverse field kids acc

def nodesOf (labels : List (Option Alias × Option String)) (field : Option String) :
    List Tree → List ParseNode → List ParseNode
  | [], acc => acc
  | t :: ts, acc =>
      if t.isExtra then nodes none none t (nodesOf labels field ts acc)
      else
        match labels with
        | (a, f) :: labels => nodes a (f <|> field) t (nodesOf labels field ts acc)
        | [] => nodes none field t (nodesOf [] field ts acc)

end

def parse (text : String) : Option ParseNode :=
  (Grammar.read r.table r.start r.lexicon.lexer text.toList).bind fun t =>
    (r.nodes none none t []).head?

end Reader

def javaScript : Reader := Reader.ofGrammar JavaScript.grammar JavaScript.reservedWords false

def typeScript : Reader := Reader.ofGrammar (TypeScript.grammar false) [] true

def typeScriptWithTags : Reader := Reader.ofGrammar (TypeScript.grammar true) [] true

end Pseudonym.Language
