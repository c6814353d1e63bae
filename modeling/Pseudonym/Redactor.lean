import Pseudonym.Names.Words
import Pseudonym.Profile.Resolver
import Pseudonym.Source.Parser
import Pseudonym.Tree.Convert
import Pseudonym.Tree.Print
import Pseudonym.Tree.Walk

namespace Pseudonym

/-- The tree of a text, if the text keeps the rules of its profile. -/
def Parser.tree (parser : Parser) (profile : Profile) (text : String) : Except Error Tree := do
  let source := Text.encode text
  let root ← (parser profile text).mapError fun e => .request (.parse e)
  pure ⟨← Convert.convert source profile root, source⟩

structure Request where
  text : Value
  hint : Value := .null
  /-- Whether the substitutes are to be told. Without it the settings decide. -/
  includeMapping : Option Bool := none
  deriving Inhabited

structure Redaction where
  code : String
  profile : String
  replaced : Nat := 0
  mapping : Option (List (String × String)) := none
  deriving DecidableEq, Repr, Inhabited

structure Redactor (σ : Type) where
  supply : Supply σ
  resolver : Resolver
  includeMapping : Bool

/-- What a request comes to: its result, the supply after it, and the notes taken. -/
structure Reply (σ α : Type) where
  result : Except Error α
  state : σ
  log : Log := []

namespace Redactor

variable {σ : Type}

/-- The sections of the settings that matter here. -/
structure Sections where
  grammar : Value
  substitutes : Value
  includeMapping : Bool

def sections (settings : Value) : Except Error Sections := do
  let settings := settings.orEmpty
  let grammar ← Settings.entry settings "grammar" (.map [])
  let substitutes ← Settings.entry settings "substitutes" (.map [])
  let redaction ← Settings.entry settings "redaction" (.map [])
  let includeMapping ← Settings.entry redaction "include_mapping" (.bool false)
  pure { grammar, substitutes, includeMapping := includeMapping.truthy }

/-- A redactor for a supply that is given. -/
def ofSettings (settings : Value) (supply : Supply σ) : Except Error (Redactor σ) := do
  let s ← sections settings
  pure { supply, resolver := ← Resolver.ofSection s.grammar, includeMapping := s.includeMapping }

/-- A redactor with names made of words, and the state to start from. -/
def ofWords (settings : Value) (words : WordSource.Maker σ) : Except Error (Redactor σ × σ) := do
  let s ← sections settings
  let options ← WordOptions.ofSection s.substitutes
  let (source, start) ← words options.locale options.seed
  let resolver ← Resolver.ofSection s.grammar
  pure ({ supply := source.supply options, resolver, includeMapping := s.includeMapping }, start)

def description (r : Redactor σ) : String :=
  "CodeRedactor(generator=" ++ r.supply.description ++ ", default_profile=" ++
    r.resolver.defaultName ++ ")"

/-- What was done to one text. -/
structure Renamed where
  code : String
  replaced : Nat
  registry : Registry

/-- Reads a text, replaces its names and writes it again. -/
def rename (supply : Supply σ) (parser : Parser) (profile : Profile) (text : String) (state : σ) :
    Reply σ Renamed :=
  match parser.tree profile text with
  | .error e => ⟨.error e, state, []⟩
  | .ok tree =>
      let read : Note := ⟨.debug, .reading, "Parsed " ++ toString tree.source.length ++
        " bytes with '" ++ profile.name ++ "' profile (" ++ profile.grammarName ++ " grammar)"⟩
      let (tree, p) := tree.walk supply {} state
      let result := match p.failure with
        | some e => .error e
        | none => (tree.print supply.writable).map fun code => ⟨code, p.replaced, p.registry⟩
      ⟨result, p.state, read :: p.log⟩

/-- The note on a failure, which is all that is told about it. -/
def failureNote (profile : Profile) : Error → Note
  | .request (.parse e) =>
      ⟨.warning, .redaction,
        "Error while parsing code with '" ++ profile.name ++ "' profile: " ++ e.message⟩
  | _ =>
      ⟨.error, .redaction,
        "Unexpected error while redacting code with '" ++ profile.name ++ "' profile"⟩

def redactText (r : Redactor σ) (parser : Parser) (profile : Profile) (includeMapping : Option Bool)
    (text : String) (state : σ) : Reply σ Redaction :=
  let done := rename r.supply parser profile text state
  match done.result with
  | .error e =>
      ⟨.error (.request .failed), done.state, done.log ++ [failureNote profile e]⟩
  | .ok w =>
      let mapping := if includeMapping.getD r.includeMapping then some w.registry.pairs else none
      let note : Note := ⟨.debug, .redaction, "Redacted " ++ toString w.replaced ++
        " identifier occurrences (" ++ toString w.registry.size ++ " distinct) using '" ++
        profile.name ++ "' profile"⟩
      ⟨.ok ⟨w.code, profile.name, w.replaced, mapping⟩, done.state, done.log ++ [note]⟩

/-- Answers one request. -/
def redact (r : Redactor σ) (parser : Parser) (request : Request) (state : σ) :
    Reply σ Redaction :=
  match Registry.usable? request.text with
  | none => ⟨.error (.request .noSource), state, []⟩
  | some text =>
      match r.resolver.resolve request.hint with
      | (.error e, log) => ⟨.error e, state, log⟩
      | (.ok profile, log) =>
          let reply := r.redactText parser profile request.includeMapping text state
          { reply with log := log ++ reply.log }

/-- Answers requests one after another. -/
def session (r : Redactor σ) (parser : Parser) :
    List Request → σ → List (Reply σ Redaction)
  | [], _ => []
  | request :: rest, state =>
      let reply := r.redact parser request state
      reply :: session r parser rest reply.state

end Redactor

end Pseudonym
