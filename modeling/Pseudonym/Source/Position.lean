namespace Pseudonym

structure Position where
  offset : Nat
  row : Nat
  /-- Bytes since the last line feed. -/
  column : Nat
  deriving DecidableEq, Repr, Inhabited

namespace Position

def origin : Position := ⟨0, 0, 0⟩

def next (p : Position) (c : Char) : Position :=
  if c = '\n' then ⟨p.offset + 1, p.row + 1, 0⟩
  else ⟨p.offset + c.utf8Size, p.row, p.column + c.utf8Size⟩

def after (p : Position) (cs : List Char) : Position := cs.foldl next p

end Position

end Pseudonym
