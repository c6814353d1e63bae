import Pseudonym.Settings.Entry
import Pseudonym.Text.Case

namespace Pseudonym

inductive SourceType where
  | module
  | script
  deriving DecidableEq, Repr, Inhabited

inductive Plugin where
  | types
  | tags
  deriving DecidableEq, Repr, Inhabited

structure Profile where
  name : String
  sourceType : SourceType := .module
  /-- Types may be written. -/
  types : Bool := false
  /-- Tags may be written. -/
  tags : Bool := false
  deriving DecidableEq, Repr, Inhabited

namespace SourceType

def name : SourceType → String
  | module => "module"
  | script => "script"

def ofText (text : String) : Except Error SourceType :=
  if text = "module" then .ok .module
  else if text = "script" then .ok .script
  else .error (.value (.sourceType text))

end SourceType

def Plugin.ofText (text : String) : Except Error Plugin :=
  if text = "typescript" then .ok .types
  else if text = "jsx" then .ok .tags
  else .error (.value (.plugin text))

namespace Profile

/-- The plugins in use, sorted by name. -/
def plugins (p : Profile) : List String :=
  (if p.tags then ["jsx"] else []) ++ (if p.types then ["typescript"] else [])

def isExtended (p : Profile) : Bool := p.types || p.tags

def grammarName (p : Profile) : String :=
  if p.types then if p.tags then "tsx" else "typescript" else "javascript"

/-- A profile from its entry in the settings. -/
def ofOptions (name : String) (options : Value) : Except Error Profile := do
  let options := options.orEmpty
  let type ← Settings.entry options "source_type" (.text "module")
  let sourceType ← SourceType.ofText (Text.lower (← type.asText))
  let listed := (← Settings.entry options "plugins" .null)
  let listed ← if listed.truthy then listed.items else pure []
  let plugins ← listed.mapM fun p => do Plugin.ofText (Text.lower (← p.asText))
  pure { name, sourceType, types := plugins.contains .types, tags := plugins.contains .tags }

end Profile

end Pseudonym
