import Pseudonym.Names.Words

namespace Pseudonym.WordSource

namespace Lottery

def words : List String :=
  ["lorem", "ipsum", "dolor", "sit", "amet", "quia", "vero", "illo", "naïve", "l'eau", "東京", "co-op",
    "Alias", "x2y", "nemo", "rerum"]

def step (state : Nat) : Nat := (state * 1103515245 + 12345) % Nat.pow 2 31

/-- What a state yields. -/
def output (state : Nat) : Nat := state / Nat.pow 2 16

/-- The state to start from, by the text of a seed if there is one. -/
def start (seed : Value) (luck : Nat) : Nat :=
  match seed with
  | .null => luck
  | seed => (seed.display.getD "").toList.foldl (fun state c => (state * 31 + c.toNat) % Nat.pow 2 32) 0

end Lottery

open Lottery in
/-- Words and numbers by a linear congruence. The state is the congruence's. -/
def lottery : WordSource Nat where
  word state :=
    let next := step state
    (.ok (words.getD (output next % words.length) ""), next)
  number lowest highest state :=
    let next := step state
    (.ok (lowest + (output next : Int).fmod (highest - lowest + 1)), next)

/-- Words by lot for any locale. Without a seed they start from `luck`. -/
def byLot (luck : Nat) : Maker Nat := fun _ seed => .ok (lottery, Lottery.start seed luck)

end Pseudonym.WordSource
