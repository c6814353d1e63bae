import Pseudonym.Error

namespace Pseudonym.Text

/-- A way to read and to write texts as bytes. -/
structure Codec where
  decode : Bytes → Except DecodeFault (List Char)
  encode : String → Except EncodeFault Bytes

/-- The codecs that are known, by name. -/
abbrev Codecs := String → Option Codec

def Codec.utf8 : Codec where
  decode := decodeChars
  encode s := .ok (Text.encode s)

end Pseudonym.Text
