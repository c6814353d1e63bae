import Pseudonym.Language.Variant
import Pseudonym.Source.Parser

namespace Pseudonym.Language

def readerOf (p : Profile) : Reader :=
  if p.types then if p.tags then typeScriptWithTags else typeScript else javaScript

def parser : Parser := fun profile text =>
  match (readerOf profile).parse text with
  | some root => .ok root
  | none => .error ⟨.unreadable, none, none⟩

end Pseudonym.Language
