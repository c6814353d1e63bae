import Pseudonym.Text.Integer
import Pseudonym.Value

namespace Pseudonym.CommandLine

inductive Switch where
  | help
  | output
  | folder
  | recursive
  | config
  | language
  | mapping
  | noMapping
  | seed
  | backup
  | verbose
  | version
  deriving DecidableEq, Repr, Inhabited

namespace Switch

def all : List Switch :=
  [help, output, folder, recursive, config, language, mapping, noMapping, seed, backup, verbose,
    version]

def spellings : Switch → List String
  | help => ["-h", "--help"]
  | output => ["-o", "--output"]
  | folder => ["--dir"]
  | recursive => ["-r", "--recursive"]
  | config => ["-c", "--config"]
  | language => ["-l", "--language"]
  | mapping => ["--mapping"]
  | noMapping => ["--no-mapping"]
  | seed => ["--seed"]
  | backup => ["--backup"]
  | verbose => ["-v", "--verbose"]
  | version => ["--version"]

def label (s : Switch) : String := String.intercalate "/" s.spellings

def takesValue : Switch → Bool
  | output | config | language | seed => true
  | _ => false

/-- All spellings in order. -/
def table : List (String × Switch) := all.flatMap fun s => s.spellings.map fun t => (t, s)

def ofSpelling? (spelling : String) : Option Switch := table.lookup spelling

end Switch

/-- What is wrong with a command line. -/
inductive Fault where
  | missingInput
  | unrecognized (arguments : List String)
  | ambiguous (argument : String) (candidates : List String)
  | noValue (s : Switch)
  | unwantedValue (s : Switch) (value : String)
  | notANumber (s : Switch) (value : String)
  | excluded (s other : Switch)
  deriving DecidableEq, Repr, Inhabited

def Fault.message : Fault → String
  | missingInput => "the following arguments are required: input"
  | unrecognized arguments => "unrecognized arguments: " ++ String.intercalate " " arguments
  | ambiguous argument candidates =>
      "ambiguous option: " ++ argument ++ " could match " ++ String.intercalate ", " candidates
  | noValue s => "argument " ++ s.label ++ ": expected one argument"
  | unwantedValue s value =>
      "argument " ++ s.label ++ ": ignored explicit argument " ++ Text.quoted value
  | notANumber s value => "argument " ++ s.label ++ ": invalid int value: " ++ Text.quoted value
  | excluded s other => "argument " ++ s.label ++ ": not allowed with argument " ++ other.label

structure Arguments where
  input : String
  output : Option String := none
  folder : Bool := false
  recursive : Bool := false
  config : Option String := none
  language : Option String := none
  mapping : Option Bool := none
  seed : Option Int := none
  backup : Bool := false
  verbose : Bool := false
  deriving DecidableEq, Repr, Inhabited

/-- Why a command line gives no arguments. -/
inductive Stop where
  | fault (f : Fault)
  | help
  | version
  deriving DecidableEq, Repr, Inhabited

/-- One argument: a word, the mark after which all are words, or a switch, with the value that is
written in one with it. -/
inductive Item where
  | word
  | wordsFollow
  | switch (s : Switch) (isShort hasEquals : Bool) (value : Option String)
  | unknown
  deriving DecidableEq, Repr, Inhabited

namespace Item

def startsWith (lead s : String) : Bool := lead.toList.isPrefixOf s.toList

/-- The text before the first equals sign, and the text after it. -/
def splitEquals (argument : String) : String × Option String :=
  let cs := argument.toList
  match cs.dropWhile (· ≠ '=') with
  | [] => (argument, none)
  | _ :: value => (String.ofList (cs.takeWhile (· ≠ '=')), some (String.ofList value))

/-- A minus sign with a whole or a decimal number. -/
def isNegativeNumber (cs : List Char) : Bool :=
  let isDigit (c : Char) : Bool := (Text.digitValue? c).isSome
  match cs with
  | '-' :: body =>
      let body := if body.getLast? = some '\n' then body.dropLast else body
      match body.dropWhile isDigit with
      | [] => !body.isEmpty
      | '.' :: rest => !rest.isEmpty && rest.all isDigit
      | _ => false
  | _ => false

/-- A long switch, or the start of one. -/
def ofLong (argument : String) : Except Fault (Option Item) :=
  let (name, value) := splitEquals argument
  match Switch.table.filter fun (t, _) => startsWith name t with
  | [] => .ok none
  | [(_, s)] => .ok (some (.switch s false value.isSome value))
  | several => .error (.ambiguous argument (several.map (·.1)))

/-- A short switch with what follows it. -/
def ofShort (cs : List Char) : Option Item :=
  (Switch.ofSpelling? (String.ofList (cs.take 2))).map fun s =>
    .switch s true false (some (String.ofList (cs.drop 2)))

def ofArgument (argument : String) : Except Fault Item :=
  let cs := argument.toList
  if cs.head? ≠ some '-' then .ok .word
  else
    match Switch.ofSpelling? argument, splitEquals argument with
    | some s, _ => .ok (.switch s (cs.length = 2) false none)
    | none, (name, value) =>
        if cs.length = 1 then .ok .word
        else
          match value, Switch.ofSpelling? name with
          | some v, some s => .ok (.switch s (name.length = 2) true (some v))
          | _, _ => do
              let found ← if startsWith "--" argument then ofLong argument else pure (ofShort cs)
              match found with
              | some item => pure item
              | none =>
                  if isNegativeNumber cs || cs.contains ' ' then pure .word else pure .unknown

def ofArguments : List String → Except Fault (List (String × Item))
  | [] => .ok []
  | argument :: rest =>
      if argument = "--" then .ok ((argument, .wordsFollow) :: rest.map (·, .word))
      else do
        let item ← ofArgument argument
        let items ← ofArguments rest
        pure ((argument, item) :: items)

end Item

/-- What has been made of the arguments so far. -/
structure Progress where
  arguments : Arguments := { input := "" }
  hasInput : Bool := false
  extras : List String := []

namespace Progress

def extra (p : Progress) (argument : String) : Progress := { p with extras := p.extras ++ [argument] }

/-- Sets a switch. The two that say whether a mapping is written exclude each other. -/
def apply (p : Progress) (s : Switch) (value : String) : Except Stop Progress :=
  let a := p.arguments
  let done (a : Arguments) : Except Stop Progress := .ok { p with arguments := a }
  match s with
  | .help => .error .help
  | .version => .error .version
  | .output => done { a with output := some value }
  | .folder => done { a with folder := true }
  | .recursive => done { a with recursive := true }
  | .config => done { a with config := some value }
  | .language => done { a with language := some value }
  | .mapping =>
      if a.mapping = some false then .error (.fault (.excluded .mapping .noMapping))
      else done { a with mapping := some true }
  | .noMapping =>
      if a.mapping = some true then .error (.fault (.excluded .noMapping .mapping))
      else done { a with mapping := some false }
  | .seed =>
      match Text.parseInteger value with
      | .ok n => done { a with seed := some n }
      | .error _ => .error (.fault (.notANumber .seed value))
  | .backup => done { a with backup := true }
  | .verbose => done { a with verbose := true }

def applyAll (p : Progress) : List (Switch × String) → Except Stop Progress
  | [] => .ok p
  | (s, value) :: rest => do applyAll (← p.apply s value) rest

end Progress

/-- Switches written in one. -/
structure Cluster where
  /-- Those that are complete, with their values. -/
  complete : List (Switch × String) := []
  /-- The last one, if its value would have to follow. -/
  pending : Option Switch := none
  /-- What is no switch. -/
  extra : Option String := none

/-- Takes apart a switch and the text that follows it at once. -/
def cluster (s : Switch) (isShort hasEquals : Bool) : List Char → Except Fault Cluster
  | [] =>
      if s.takesValue then .ok { complete := [(s, "")] } else .error (.unwantedValue s "")
  | c :: rest =>
      if s.takesValue then .ok { complete := [(s, String.ofList (c :: rest))] }
      else if !isShort || hasEquals || c = '-' then
        .error (.unwantedValue s (String.ofList (c :: rest)))
      else
        match Switch.ofSpelling? (String.ofList ['-', c]) with
        | none => .ok { complete := [(s, "")], extra := some (String.ofList ('-' :: c :: rest)) }
        | some next => do
            let more ← match rest with
              | [] => pure { pending := some next }
              | d :: value =>
                  if d = '=' then cluster next true true value else cluster next true false (d :: value)
            pure { more with complete := (s, "") :: more.complete }

namespace Progress

/-- Goes through the arguments in order. -/
def go (p : Progress) : List (String × Item) → Except Stop Progress
  | [] => .ok p
  | (argument, .word) :: rest =>
      if p.hasInput then go (p.extra argument) rest
      else
        let p := { p with arguments := { p.arguments with input := argument }, hasInput := true }
        match rest with
        | (_, .wordsFollow) :: rest => go p rest
        | rest => go p rest
  | (argument, .wordsFollow) :: rest =>
      if p.hasInput then go (p.extra argument) rest
      else
        match rest with
        | (word, _) :: rest =>
            go { p with arguments := { p.arguments with input := word }, hasInput := true } rest
        | [] => .ok (p.extra argument)
  | (argument, .unknown) :: rest => go (p.extra argument) rest
  | (_, .switch s isShort hasEquals value) :: rest => do
      let c ← match value with
        | some v => (cluster s isShort hasEquals v.toList).mapError .fault
        | none => pure { pending := some s }
      let p := (c.extra.map p.extra).getD p
      match c.pending with
      | none => go (← p.applyAll c.complete) rest
      | some last =>
          if last.takesValue then
            match rest with
            | (word, .word) :: rest => go (← p.applyAll (c.complete ++ [(last, word)])) rest
            | _ => .error (.fault (.noValue last))
          else go (← p.applyAll (c.complete ++ [(last, "")])) rest

end Progress

namespace Arguments

def parse (arguments : List String) : Except Stop Arguments := do
  let items ← (Item.ofArguments arguments).mapError .fault
  let p ← Progress.go {} items
  if !p.hasInput then .error (.fault .missingInput)
  else if !p.extras.isEmpty then .error (.fault (.unrecognized p.extras))
  else .ok p.arguments

/-- The settings that the arguments demand. -/
def overrides (a : Arguments) : Value :=
  let seed := a.seed.toList.map fun n => ("substitutes", Value.ofPairs [("seed", .int n)])
  let processing := a.mapping.toList.map (fun b => ("write_mapping", Value.bool b)) ++
    (if a.backup then [("backup_original", .bool true)] else [])
  .ofPairs (seed ++ (if processing.isEmpty then [] else [("processing", .ofPairs processing)]) ++
    (if a.verbose then [("logging", .ofPairs [("level", .text "DEBUG")])] else []))

end Arguments

end Pseudonym.CommandLine
