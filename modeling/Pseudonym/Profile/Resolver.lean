import Pseudonym.Log
import Pseudonym.Profile.Basic
import Pseudonym.Text.Blank

namespace Pseudonym

/-- What becomes of a hint that names no profile. -/
inductive HintPolicy where
  | reject
  | fallback
  deriving DecidableEq, Repr, Inhabited

def HintPolicy.name : HintPolicy → String
  | reject => "reject"
  | fallback => "fallback"

def HintPolicy.ofText (text : String) : Except Error HintPolicy :=
  if text = "reject" then .ok .reject
  else if text = "fallback" then .ok .fallback
  else .error (.value (.hintPolicy text))

abbrev ProfileTable := List (String × Profile)

/-- Sets a profile. A name that is there keeps its place. -/
def ProfileTable.insert (table : ProfileTable) (name : String) (p : Profile) : ProfileTable :=
  match table with
  | [] => [(name, p)]
  | (n, old) :: rest =>
      if n = name then (name, p) :: rest else (n, old) :: ProfileTable.insert rest name p

structure Resolver where
  profiles : ProfileTable
  defaultName : String
  policy : HintPolicy
  default : Profile
  default_found : profiles.lookup defaultName = some default

namespace Resolver

def builtinProfiles : List (Key × Value) :=
  let entry (name type : String) (plugins : List Value) : Key × Value :=
    (.text name, .ofPairs [("source_type", .text type), ("plugins", .list plugins)])
  [entry "module" "module" [], entry "script" "script" [],
    entry "javascript" "module" [.text "typescript", .text "jsx"]]

def readProfiles (table : ProfileTable) : List (Key × Value) → Except Error ProfileTable
  | [] => .ok table
  | (.text name, options) :: rest => do
      let name := Text.lower name
      readProfiles (table.insert name (← Profile.ofOptions name options)) rest
  | _ :: _ => .error .noSuchEntry

def ofSection (settings : Value) : Except Error Resolver := do
  let settings := settings.orEmpty
  let table ← Settings.entry settings "profiles" .null
  let table ← if table.truthy then Settings.entries table else pure builtinProfiles
  let profiles ← readProfiles [] table
  let defaultName := Text.lower
    (← (← Settings.entry settings "default_profile" (.text "module")).asText)
  match h : profiles.lookup defaultName with
  | none => .error (.value (.noDefaultProfile defaultName))
  | some default =>
      let policy ← HintPolicy.ofText
        (Text.lower (← (← Settings.entry settings "unknown_hint" (.text "reject")).asText))
      pure { profiles, defaultName, policy, default, default_found := h }

/-- A hint without the blanks around it and in lower case, unless nothing is left. -/
def normalizeHint : Value → Except Error (Option String)
  | .null => .ok none
  | hint =>
      hint.asText.map fun text =>
        let text := Text.lower (Text.strip text)
        if text.isEmpty then none else some text

/-- The names of the profiles, sorted. -/
def knownHints (r : Resolver) : List String := (r.profiles.map (·.1)).mergeSort

/-- The profile of a hint, and what is to be noted. -/
def resolve (r : Resolver) (hint : Value) : Except Error Profile × Log :=
  match normalizeHint hint with
  | .error e => (.error e, [])
  | .ok none => (.ok r.default, [])
  | .ok (some name) =>
      match r.profiles.lookup name with
      | some p => (.ok p, [])
      | none =>
          match r.policy with
          | .reject => (.error (.request (.unknownHint (hint.display.getD ""))), [])
          | .fallback =>
              (.ok r.default, [⟨.warning, .profiles, "Unknown language hint " ++
                hint.quoted.getD "" ++ ", using '" ++ r.defaultName ++ "' profile"⟩])

end Resolver

end Pseudonym
