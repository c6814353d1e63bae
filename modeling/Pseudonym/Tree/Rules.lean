import Pseudonym.Profile.Basic
import Pseudonym.Source.ParseNode
import Pseudonym.Text.Utf8

namespace Pseudonym.Rules

open Text (Bytes)

/-- The constructs around a node that decide which jumps may stand there. -/
structure Context where
  inFunction : Bool := false
  breakable : Bool := false
  inLoop : Bool := false
  labelled : Bool := false
  deriving DecidableEq, Repr, Inhabited

def functionTypes : List String :=
  ["function_declaration", "function_expression", "function", "generator_function_declaration",
    "generator_function", "arrow_function", "method_definition"]

def loopTypes : List String :=
  ["for_statement", "for_in_statement", "while_statement", "do_statement"]

/-- Constructs whose statements share one scope. -/
def blockTypes : List String := ["program", "statement_block", "class_static_block"]

def moduleOnlyTypes : List String := ["import_statement", "export_statement"]

def bindingTypes : List String :=
  ["identifier", "shorthand_property_identifier", "shorthand_property_identifier_pattern"]

def reservedWords : List String :=
  ["await", "implements", "interface", "let", "package", "private", "protected", "public", "static",
    "yield"]

/-- The context of the children of a node. -/
def Context.inside (c : Context) (type : String) : Context :=
  if functionTypes.contains type then { inFunction := true }
  else if type = "class_static_block" then {}
  else if loopTypes.contains type then { c with breakable := true, inLoop := true }
  else if type = "switch_statement" then { c with breakable := true }
  else if type = "labeled_statement" then { c with labelled := true }
  else c

/-- Rejects a node at its place. -/
def reject {α : Type} (n : ParseNode) (v : Violation) : Except Error α :=
  .error (.request (.parse ⟨v, some (n.row + 1), some n.column⟩))

def require (n : ParseNode) (ok : Bool) (v : Violation) : Except Error Unit :=
  if ok then .ok () else reject n v

def textOf (source : Bytes) (n : ParseNode) : Except Error String :=
  (Text.decode (Text.slice source n.start n.stop)).mapError .decode

/-- How much of a faulty construct is shown, in bytes. -/
def snippetLength : Nat := 20

def snippet (source : Bytes) (n : ParseNode) : String :=
  Text.decodeLossy ((Text.slice source n.start n.stop).take snippetLength)

def isLegacyOctal (text : String) : Bool :=
  match text.toList with
  | '0' :: c :: _ => c.isDigit
  | _ => false

/-- What module source forbids. -/
def checkStrict (source : Bytes) (n : ParseNode) : Except Error Unit := do
  require n (n.type ≠ "with_statement") .withStatement
  if n.children.isEmpty then
    if bindingTypes.contains n.type then
      let text ← textOf source n
      require n (!reservedWords.contains text) (.reservedWord text)
    if n.type = "number" then
      let text ← textOf source n
      require n (!isLegacyOctal text) .legacyOctal

/-- Whether the jump may stand in its context. -/
def jumpAllowed (c : Context) (n : ParseNode) : Bool :=
  let labelled := n.children.any fun child => child.type = "statement_identifier"
  if n.type = "break_statement" then if labelled then c.labelled else c.breakable
  else if n.type = "continue_statement" then if labelled then c.labelled && c.inLoop else c.inLoop
  else true

def checkJump (c : Context) (n : ParseNode) : Except Error Unit := do
  require n (n.type ≠ "return_statement" || c.inFunction) .returnOutside
  require n (jumpAllowed c n)
    (.jump (if n.type = "break_statement" then "break" else "continue"))

/-- A name that a statement declares. Lexical names are those of constants, variables of a block and
classes. -/
structure Declared where
  node : ParseNode
  isLexical : Bool
  deriving Inhabited

def isSimpleName (n : ParseNode) : Bool := n.type = "identifier" || n.type = "type_identifier"

/-- The simple names that a statement binds. -/
def boundNames (statement : ParseNode) : List ParseNode :=
  let type := statement.type
  let names :=
    if type = "lexical_declaration" || type = "variable_declaration" then
      (statement.namedChildren.filter fun d => d.type = "variable_declarator").filterMap
        (·.childByField? "name")
    else if type = "class_declaration" || type = "function_declaration" ||
        type = "generator_function_declaration" then
      (statement.childByField? "name").toList
    else []
  names.filter isSimpleName

/-- The statement itself, or what it exports. -/
def declaration? (statement : ParseNode) : Option ParseNode :=
  if statement.type = "export_statement" then statement.childByField? "declaration"
  else some statement

def declaredBy (statement : ParseNode) : List Declared :=
  match declaration? statement with
  | none => []
  | some d =>
      let isLexical := d.type = "lexical_declaration" || d.type = "class_declaration"
      (boundNames d).map fun node => ⟨node, isLexical⟩

/-- The names declared by the statements of a block, in order. -/
def declaredNames (block : ParseNode) : List Declared := block.namedChildren.flatMap declaredBy

/-- Goes through declared names, given those seen before. A lexical name is the only one of its
text. -/
def checkNames (source : Bytes) (lexical hoisted : List String) : List Declared → Except Error Unit
  | [] => .ok ()
  | d :: rest => do
      let name ← textOf source d.node
      require d.node (!(lexical.contains name || (d.isLexical && hoisted.contains name)))
        (.redeclared name)
      if d.isLexical then checkNames source (name :: lexical) hoisted rest
      else checkNames source lexical (name :: hoisted) rest

def checkDeclarations (source : Bytes) (block : ParseNode) : Except Error Unit :=
  checkNames source [] [] (declaredNames block)

def isTagType (type : String) : Bool := "jsx_".toList.isPrefixOf type.toList

/-- All rules for one node, in order. -/
def checkNode (source : Bytes) (profile : Profile) (c : Context) (n : ParseNode) :
    Except Error Unit := do
  require n (n.type ≠ "ERROR") (.unexpected (snippet source n))
  require n (!n.isMissing) (.missing n.type)
  require n (profile.tags || !isTagType n.type) (.tagsDisabled profile.name)
  require n (profile.sourceType = .module || !moduleOnlyTypes.contains n.type) .moduleOnly
  if profile.sourceType = .module then checkStrict source n
  checkJump c n
  if blockTypes.contains n.type then checkDeclarations source n

end Pseudonym.Rules
