import Pseudonym.Names.Supply
import Pseudonym.Settings.Entry

namespace Pseudonym

structure WordOptions where
  locale : Value
  seed : Value
  separator : String
  lowest : Int
  highest : Int
  deriving Inhabited

def isWordChar (c : Char) : Bool := c.isAlphanum || c = '_' || c = '$'

/-- Letters, digits, `_` and `$`. A line end may follow them. -/
def isSafeSeparator (s : String) : Bool :=
  match s.toList.dropWhile isWordChar with
  | [] => true
  | rest => rest = ['\n']

namespace WordOptions

def ofSection (settings : Value) : Except Error WordOptions := do
  let settings := settings.orEmpty
  let locale ← Settings.option settings "locale" (.text "en_US")
  let seed ← Settings.option settings "seed" .null
  let separator ← (← Settings.option settings "separator" (.text "_")).asText
  let lowest ← (← Settings.option settings "min_number" (.int 1)).toInteger
  let highest ← (← Settings.option settings "max_number" (.int 100)).toInteger
  if lowest < 0 then .error (.value (.withNumbers [lowest] (.negativeMinimum lowest)))
  else if highest < lowest then
    .error (.value (.withNumbers [lowest, highest] (.emptyRange lowest highest)))
  else if !isSafeSeparator separator then .error (.value (.separator separator))
  else pure { locale, seed, separator, lowest, highest }

end WordOptions

/-- A source of words, and of numbers between two bounds. -/
structure WordSource (σ : Type) where
  word : σ → Except Error String × σ
  number : Int → Int → σ → Except Error Int × σ

/-- How a source of words is come by, from a locale and a seed. -/
abbrev WordSource.Maker (σ : Type) := (locale seed : Value) → Except Error (WordSource σ × σ)

namespace WordSource

/-- The plain letters of a word. A word without any is replaced. -/
def plainWord (word : String) : String :=
  match word.toList.filter Char.isAlpha with
  | [] => "name"
  | letters => String.ofList letters

variable {σ : Type}

def draw (source : WordSource σ) (options : WordOptions) (state : σ) : Except Error String × σ :=
  match source.word state with
  | (.error e, state) => (.error e, state)
  | (.ok word, state) =>
      match source.number options.lowest options.highest state with
      | (.error e, state) => (.error e, state)
      | (.ok n, state) =>
          match Text.decimal? n with
          | some digits => (.ok (plainWord word ++ options.separator ++ digits), state)
          | none => (.error (.value .tooManyDigits), state)

def supply (source : WordSource σ) (options : WordOptions) : Supply σ where
  draw := source.draw options
  strategy := "word"
  description := "FakerSubstituteGenerator(strategy=word)"

/-- Words and numbers from two lists that are gone through again and again. A strict source fails
at the end of a list instead. The state counts the words and numbers asked for. -/
def listed (words : List String) (numbers : List Int) (strict : Bool) : WordSource (Nat × Nat) where
  word := fun (i, j) => (pick words i, (i + 1, j))
  number := fun lowest highest (i, j) =>
    ((pick numbers j).map fun n => lowest + n.fmod (highest - lowest + 1), (i, j + 1))
where
  pick {α : Type} (items : List α) (i : Nat) : Except Error α :=
    match items[if strict then i else i % items.length]? with
    | some a => .ok a
    | none => if strict then .error .exhausted else .error .emptySource

end WordSource

end Pseudonym
