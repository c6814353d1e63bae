import Pseudonym.Error

namespace Pseudonym

/-- A supply of names. A draw gives a name or fails, and moves the supply on in either case. -/
structure Supply (σ : Type) where
  draw : σ → Except Error String × σ
  /-- Whether a name can be written. One with half a character in it cannot; such a name is told by
  any text that this does not hold of. -/
  writable : String → Bool := fun _ => true
  strategy : String
  /-- How the supply is shown to people. -/
  description : String

namespace Supply

/-- Names that are numbered from one on. The state is how many were drawn. -/
def numbered : Supply Nat where
  draw n := (.ok ("sub_" ++ toString (n + 1)), n + 1)
  strategy := "sequence"
  description := "SequenceGenerator(strategy=sequence)"

end Supply

end Pseudonym
