import Pseudonym.Text.Codec

namespace Pseudonym.Text

inductive Encoding where
  | utf8
  /-- With a byte order mark in front. -/
  | utf8Marked
  | latin1
  | ascii
  deriving DecidableEq, Repr, Inhabited

namespace Encoding

/-- A name in lower case, with other signs than letters, digits and dots as single underscores. -/
def normalizeName (name : String) : String :=
  let isPart (c : Char) : Bool := c.isAlphanum || c = '.'
  let words := name.toList.splitBy fun a b => isPart a && isPart b
  let words := words.filter fun w => w.all isPart
  String.intercalate "_" (words.map fun w => String.ofList (w.map Char.toLower))

def name : Encoding → String
  | utf8 => "utf_8"
  | utf8Marked => "utf_8_sig"
  | latin1 => "latin_1"
  | ascii => "ascii"

def aliases : Encoding → List String
  | utf8 => ["u8", "utf", "utf8", "utf8_ucs2", "utf8_ucs4", "cp65001"]
  | utf8Marked => []
  | latin1 =>
      ["8859", "cp819", "csisolatin1", "ibm819", "iso8859", "iso8859_1", "iso_8859_1",
        "iso_8859_1_1987", "iso_ir_100", "l1", "latin", "latin1"]
  | ascii =>
      ["646", "ansi_x3.4_1968", "ansi_x3_4_1968", "ansi_x3.4_1986", "cp367", "csascii", "ibm367",
        "iso646_us", "iso_646.irv_1991", "iso_ir_6", "us", "us_ascii"]

/-- The encoding with a name. In an alias dots may stand for underscores. -/
def ofName? (name : String) : Option Encoding :=
  let name := normalizeName name
  let undotted := String.ofList (name.toList.map fun c => if c = '.' then '_' else c)
  [utf8, utf8Marked, latin1, ascii].find? fun e =>
    e.name = name || e.aliases.contains name || e.aliases.contains undotted

def byteOrderMark : Bytes := [0xef, 0xbb, 0xbf]

def decodeAscii (position : Nat) : Bytes → Except DecodeFault (List Char)
  | [] => .ok []
  | b :: rest =>
      if b < 0x80 then (decodeAscii (position + 1) rest).map (Char.ofNat b.toNat :: ·)
      else .error ⟨"ascii", position, [b], .notAscii⟩

def decodeChars : Encoding → Bytes → Except DecodeFault (List Char)
  | utf8, bs => Text.decodeChars bs
  | utf8Marked, bs =>
      if bs.isPrefixOf byteOrderMark then .ok []
      else if byteOrderMark.isPrefixOf bs then Text.decodeChars (bs.drop 3)
      else Text.decodeChars bs
  | latin1, bs => .ok (bs.map fun b => Char.ofNat b.toNat)
  | ascii, bs => decodeAscii 0 bs

/-- Characters below a limit, as single bytes. -/
def encodeBelow (codec : String) (limit position : Nat) : List Char → Except EncodeFault Bytes
  | [] => .ok []
  | c :: rest =>
      if c.toNat < limit then (encodeBelow codec limit (position + 1) rest).map (UInt8.ofNat c.toNat :: ·)
      else
        .error ⟨codec, c, position, 1 + (rest.takeWhile fun d => limit ≤ d.toNat).length,
          "ordinal not in range(" ++ toString limit ++ ")"⟩

def encode : Encoding → String → Except EncodeFault Bytes
  | utf8, s => .ok (Text.encode s)
  | utf8Marked, s => .ok (byteOrderMark ++ Text.encode s)
  | latin1, s => encodeBelow "latin-1" 256 0 s.toList
  | ascii, s => encodeBelow "ascii" 128 0 s.toList

def codec : Encoding → Codec
  | utf8 => .utf8
  | e => ⟨e.decodeChars, e.encode⟩

def codecs : Codecs := fun name => (ofName? name).map codec

end Encoding

end Pseudonym.Text
