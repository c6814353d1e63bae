import Pseudonym.Profile.Basic
import Pseudonym.Source.ParseNode

namespace Pseudonym

/-- How the text of a profile is read. -/
abbrev Parser := Profile → String → Except ParseError ParseNode

end Pseudonym
