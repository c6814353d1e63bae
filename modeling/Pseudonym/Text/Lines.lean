import Pseudonym.Text.Utf8

namespace Pseudonym.Text

/-- Turns carriage returns, also those before a line feed, into line feeds. -/
def unifyLineEnds : List Char → List Char
  | [] => []
  | '\r' :: '\n' :: cs => '\n' :: unifyLineEnds cs
  | '\r' :: cs => '\n' :: unifyLineEnds cs
  | c :: cs => c :: unifyLineEnds cs

end Pseudonym.Text
