import Pseudonym.Grammar.Reading

namespace Pseudonym.Language

inductive Terminal where
  /-- A keyword or a mark, spelled as it is. -/
  | literal (text : String)
  | identifier
  | privateName
  | number
  | regexPattern
  /-- The mark that closes a regular expression. -/
  | regexEnd
  | regexFlags
  | doubleFragment
  | singleFragment
  | jsxDoubleFragment
  | jsxSingleFragment
  | escapeSequence
  | templateText
  /-- The end of a statement without a mark. -/
  | automaticSemicolon
  | signatureSemicolon
  /-- The mark that asks in a conditional. -/
  | ternaryMark
  | comment
  | htmlComment
  | jsxText
  /-- A name with a hyphen. -/
  | jsxName
  | entity
  | hashBang
  /-- The words static and get, at the end of a line. -/
  | staticGet
  deriving DecidableEq, Hashable, Repr, Inhabited

namespace Terminal

/-- How a terminal is called in the tree. Nothing for terminals that leave no node. -/
def label : Terminal → Option Grammar.Alias
  | literal text => some ⟨text, false⟩
  | identifier => some ⟨"identifier", true⟩
  | privateName => some ⟨"private_property_identifier", true⟩
  | number => some ⟨"number", true⟩
  | regexPattern => some ⟨"regex_pattern", true⟩
  | regexEnd => some ⟨"/", false⟩
  | regexFlags => some ⟨"regex_flags", true⟩
  | doubleFragment => some ⟨"unescaped_double_string_fragment", true⟩
  | singleFragment => some ⟨"unescaped_single_string_fragment", true⟩
  | jsxDoubleFragment => some ⟨"unescaped_double_jsx_string_fragment", true⟩
  | jsxSingleFragment => some ⟨"unescaped_single_jsx_string_fragment", true⟩
  | escapeSequence => some ⟨"escape_sequence", true⟩
  | comment => some ⟨"comment", true⟩
  | htmlComment => some ⟨"html_comment", true⟩
  | jsxText => some ⟨"jsx_text", true⟩
  | jsxName => some ⟨"jsx_identifier", true⟩
  | entity => some ⟨"html_character_reference", true⟩
  | hashBang => some ⟨"hash_bang_line", true⟩
  | staticGet => some ⟨"static get", false⟩
  | templateText | automaticSemicolon | signatureSemicolon | ternaryMark => none

/-- Numbers the kinds of terminals. -/
def code : Terminal → Nat
  | literal _ => 0
  | identifier => 1
  | privateName => 2
  | number => 3
  | regexPattern => 4
  | regexEnd => 5
  | regexFlags => 6
  | doubleFragment => 7
  | singleFragment => 8
  | jsxDoubleFragment => 9
  | jsxSingleFragment => 10
  | escapeSequence => 11
  | templateText => 12
  | automaticSemicolon => 13
  | signatureSemicolon => 14
  | ternaryMark => 15
  | comment => 16
  | htmlComment => 17
  | jsxText => 18
  | jsxName => 19
  | entity => 20
  | hashBang => 21
  | staticGet => 22

end Terminal

end Pseudonym.Language
