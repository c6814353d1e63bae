import Pseudonym.Text.Quoted

namespace Pseudonym.Text

abbrev Bytes := List UInt8

def encodeChars (cs : List Char) : Bytes := cs.flatMap String.utf8EncodeChar

def encode (s : String) : Bytes := encodeChars s.toList

/-- Why bytes are no text. -/
inductive ByteFault where
  | badStart
  | badContinuation
  | endsEarly
  | notAscii
  | other (reason : String)
  deriving DecidableEq, Repr, Inhabited

/-- Bytes that are no text: which encoding, where, and the bytes at fault. -/
structure DecodeFault where
  codec : String
  position : Nat
  bytes : Bytes
  fault : ByteFault
  deriving DecidableEq, Repr, Inhabited

namespace DecodeFault

def reason : ByteFault → String
  | .badStart => "invalid start byte"
  | .badContinuation => "invalid continuation byte"
  | .endsEarly => "unexpected end of data"
  | .notAscii => "ordinal not in range(128)"
  | .other reason => reason

def message (f : DecodeFault) : String :=
  let start := "'" ++ f.codec ++ "' codec can't decode "
  match f.bytes with
  | [b] =>
      start ++ "byte 0x" ++ String.ofList (hex 2 b.toNat) ++ " in position " ++ toString f.position ++
        ": " ++ reason f.fault
  | bs =>
      start ++ "bytes in position " ++ toString f.position ++ "-" ++
        toString (f.position + bs.length - 1) ++ ": " ++ reason f.fault

end DecodeFault

def isContinuation (b : UInt8) : Bool := 0x80 ≤ b && b ≤ 0xbf

/-- Whether the second byte of a sequence of three or four may follow the first. -/
def fitsLead (lead b : UInt8) : Bool :=
  isContinuation b && (lead ≠ 0xe0 || 0xa0 ≤ b) && (lead ≠ 0xed || b ≤ 0x9f) &&
    (lead ≠ 0xf0 || 0x90 ≤ b) && (lead ≠ 0xf4 || b ≤ 0x8f)

/-- How many bytes a sequence with this first byte has. Nought for a byte that starts none. -/
def sequenceLength (lead : UInt8) : Nat :=
  if lead ≤ 0x7f then 1
  else if 0xc2 ≤ lead && lead ≤ 0xdf then 2
  else if 0xe0 ≤ lead && lead ≤ 0xef then 3
  else if 0xf0 ≤ lead && lead ≤ 0xf4 then 4
  else 0

/-- The next character with the number of its bytes, or the number of bytes at fault. -/
inductive Chunk where
  | char (c : Char) (size : Nat)
  | fault (size : Nat) (why : ByteFault)
  deriving Inhabited

def low (b : UInt8) : Nat := b.toNat % 64

def chunk2 (a : UInt8) : Bytes → Chunk
  | [] => .fault 1 .endsEarly
  | b :: _ =>
      if isContinuation b then .char (Char.ofNat (a.toNat % 32 * 64 + low b)) 2
      else .fault 1 .badContinuation

def chunk3 (a : UInt8) : Bytes → Chunk
  | [] => .fault 1 .endsEarly
  | b :: rest =>
      if fitsLead a b then
        match rest with
        | [] => .fault 2 .endsEarly
        | c :: _ =>
            if isContinuation c then
              .char (Char.ofNat ((a.toNat % 16 * 64 + low b) * 64 + low c)) 3
            else .fault 2 .badContinuation
      else .fault 1 .badContinuation

def chunk4 (a : UInt8) : Bytes → Chunk
  | [] => .fault 1 .endsEarly
  | b :: rest =>
      if fitsLead a b then
        match rest with
        | [] => .fault 2 .endsEarly
        | c :: rest =>
            if isContinuation c then
              match rest with
              | [] => .fault 3 .endsEarly
              | d :: _ =>
                  if isContinuation d then
                    .char (Char.ofNat (((a.toNat % 8 * 64 + low b) * 64 + low c) * 64 + low d)) 4
                  else .fault 3 .badContinuation
            else .fault 2 .badContinuation
      else .fault 1 .badContinuation

def chunk (a : UInt8) (rest : Bytes) : Chunk :=
  match sequenceLength a with
  | 1 => .char (Char.ofNat a.toNat) 1
  | 2 => chunk2 a rest
  | 3 => chunk3 a rest
  | 4 => chunk4 a rest
  | _ => .fault 1 .badStart

/-- Decodes bytes from a position on, of which `skip` belong to what was decoded before. -/
def decodeFrom (position skip : Nat) : Bytes → Except DecodeFault (List Char)
  | [] => .ok []
  | a :: rest =>
      match skip with
      | skip + 1 => decodeFrom (position + 1) skip rest
      | 0 =>
          match chunk a rest with
          | .char c size => (decodeFrom (position + 1) (size - 1) rest).map (c :: ·)
          | .fault size why => .error ⟨"utf-8", position, (a :: rest).take size, why⟩

def decodeChars (bs : Bytes) : Except DecodeFault (List Char) := decodeFrom 0 0 bs

/-- The text of the bytes, or the first fault. -/
def decode (bs : Bytes) : Except DecodeFault String := (decodeChars bs).map String.ofList

def decodeLossyFrom (skip : Nat) : Bytes → List Char
  | [] => []
  | a :: rest =>
      match skip with
      | skip + 1 => decodeLossyFrom skip rest
      | 0 =>
          match chunk a rest with
          | .char c size => c :: decodeLossyFrom (size - 1) rest
          | .fault size _ => Char.ofNat 0xfffd :: decodeLossyFrom (size - 1) rest

/-- The text of the bytes, with a mark in the place of each fault. -/
def decodeLossy (bs : Bytes) : String := String.ofList (decodeLossyFrom 0 bs)

/-- The bytes from `start` up to `stop`, as far as there are any. -/
def slice (bs : Bytes) (start stop : Nat) : Bytes := (bs.drop start).take (stop - start)

end Pseudonym.Text
