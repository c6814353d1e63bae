import Pseudonym.Text.Integer
import Pseudonym.Text.Utf8

namespace Pseudonym

/-- Why a source text is not accepted. -/
inductive Violation where
  | unreadable
  | unexpected (snippet : String)
  | missing (type : String)
  | tagsDisabled (profile : String)
  | moduleOnly
  | withStatement
  | reservedWord (word : String)
  | legacyOctal
  | returnOutside
  | jump (keyword : String)
  | redeclared (name : String)
  | other (text : String)
  deriving DecidableEq, Repr, Inhabited

def Violation.message : Violation → String
  | unreadable => "syntax error"
  | unexpected snippet => "Unexpected syntax near " ++ Text.quoted snippet
  | missing type => "Missing " ++ Text.quoted type
  | tagsDisabled profile => "JSX syntax is not enabled in the '" ++ profile ++ "' profile"
  | moduleOnly => "'import' and 'export' may appear only in module source"
  | withStatement => "'with' is not allowed in strict mode"
  | reservedWord word => "Unexpected reserved word " ++ Text.quoted word ++ " in strict mode"
  | legacyOctal => "Legacy octal literals are not allowed in strict mode"
  | returnOutside => "'return' outside of function"
  | jump keyword => "Unsyntactic '" ++ keyword ++ "'"
  | redeclared name => "Identifier " ++ Text.quoted name ++ " has already been declared"
  | other text => text

/-- A violation with its place: a line from one on and a column from nought on. -/
structure ParseError where
  violation : Violation
  line : Option Int := none
  column : Option Int := none
  deriving DecidableEq, Repr, Inhabited

def ParseError.message (e : ParseError) : String :=
  match e.line with
  | none => e.violation.message
  | some line =>
      let column := match e.column with
        | some c => toString c
        | none => "None"
      e.violation.message ++ " (" ++ toString line ++ ":" ++ column ++ ")"

/-- What a request for redaction can end in. -/
inductive RequestError where
  | general (text : String)
  | badRequest (text : String)
  | emptyInput (text : String)
  | unknownHint (hint : String)
  | parse (e : ParseError)
  | redactionFailed (text : String)
  deriving DecidableEq, Repr, Inhabited

namespace RequestError

def noSource : RequestError := emptyInput "No source code provided"

def failed : RequestError := redactionFailed "Failed to redact source code"

def message : RequestError → String
  | general text => text
  | badRequest text => text
  | emptyInput text => text
  | unknownHint _ => "Invalid language specified"
  | parse e => e.message
  | redactionFailed text => text

/-- Whether the request itself is at fault. -/
def isBadRequest : RequestError → Bool
  | badRequest _ | emptyInput _ | unknownHint _ => true
  | general _ | parse _ | redactionFailed _ => false

def status (e : RequestError) : Nat := if e.isBadRequest then 400 else 500

end RequestError

/-- Settings and arguments with a value that is not allowed. -/
inductive ValueFault where
  | integer (f : Text.IntegerFault)
  | integerIn (base : Nat) (text : String)
  | float (text : String)
  | notANumber
  | sourceType (text : String)
  | plugin (text : String)
  | noDefaultProfile (name : String)
  | hintPolicy (text : String)
  | negativeMinimum (n : Int)
  | emptyRange (lowest highest : Int)
  | separator (text : String)
  /-- Given as it is written inside other values. -/
  | identifierName (written : String)
  | nodeKind (text : String)
  | date (text : String)
  | logFormat (format : String)
  | pattern (text : String)
  | nullCharacter
  | tooManyDigits
  /-- A fault that a part from outside finds. -/
  | other (text : String)
  deriving DecidableEq, Repr, Inhabited

def ValueFault.message : ValueFault → String
  | integer f => f.message
  | integerIn base text =>
      "invalid literal for int() with base " ++ toString base ++ ": " ++ Text.quoted text
  | float text => "could not convert string to float: " ++ Text.quoted text
  | notANumber => "cannot convert float NaN to integer"
  | sourceType text => Text.quoted text ++ " is not a valid SourceType"
  | plugin text => Text.quoted text ++ " is not a valid GrammarPlugin"
  | noDefaultProfile name => "Default grammar profile '" ++ name ++ "' is not defined"
  | hintPolicy text =>
      "Invalid unknown_hint policy: " ++ text ++ ". Must be one of ['reject', 'fallback']"
  | negativeMinimum n => "min_number must not be negative, got " ++ toString n
  | emptyRange lowest highest =>
      "min_number (" ++ toString lowest ++ ") must not exceed max_number (" ++ toString highest ++ ")"
  | separator text => "Separator must be identifier-safe, got " ++ Text.quoted text
  | identifierName written => "Identifier name must be a non-empty string, got " ++ written
  | nodeKind text => Text.quoted text ++ " is not a valid NodeKind"
  | date text => text
  | logFormat format => "Invalid format '" ++ format ++ "' for '%' style"
  | pattern text => text
  | nullCharacter => "embedded null character"
  | tooManyDigits =>
      "Exceeds the limit (4300 digits) for integer string conversion; use sys.set_int_max_str_digits() " ++
        "to increase the limit"
  | other text => text

/-- A fault that is told with numbers. Numbers with too many digits cannot be told. -/
def ValueFault.withNumbers (numbers : List Int) (f : ValueFault) : ValueFault :=
  if numbers.all fun n => (Text.decimal? n).isSome then f else .tooManyDigits

/-- What a file system can answer instead of doing what it is asked. -/
inductive FileFault where
  | notFound (path : String)
  | alreadyThere (path : String)
  | notADirectory (path : String)
  | isADirectory (path : String)
  | tooManyLinks (path : String)
  | denied (path : String)
  | sameFile (source target : String)
  /-- No path at all, since it holds a null character. -/
  | nullByte
  deriving DecidableEq, Repr, Inhabited

def FileFault.message : FileFault → String
  | notFound path => "[Errno 2] No such file or directory: " ++ Text.quoted path
  | alreadyThere path => "[Errno 17] File exists: " ++ Text.quoted path
  | notADirectory path => "[Errno 20] Not a directory: " ++ Text.quoted path
  | isADirectory path => "[Errno 21] Is a directory: " ++ Text.quoted path
  | tooManyLinks path => "[Errno 40] Too many levels of symbolic links: " ++ Text.quoted path
  | denied path => "[Errno 13] Permission denied: " ++ Text.quoted path
  | sameFile source target =>
      Text.quoted source ++ " and " ++ Text.quoted target ++ " are the same file"
  | nullByte => "embedded null byte"

/-- Text that cannot be written in an encoding. -/
structure EncodeFault where
  codec : String
  first : Char
  position : Nat
  count : Nat
  reason : String
  deriving DecidableEq, Repr, Inhabited

def EncodeFault.message (f : EncodeFault) : String :=
  let start := "'" ++ f.codec ++ "' codec can't encode "
  if f.count = 1 then
    let n := f.first.toNat
    let code := if n < 0x100 then "\\x" ++ String.ofList (Text.hex 2 n)
      else if n < 0x10000 then "\\u" ++ String.ofList (Text.hex 4 n)
      else "\\U" ++ String.ofList (Text.hex 8 n)
    start ++ "character '" ++ code ++ "' in position " ++ toString f.position ++ ": " ++ f.reason
  else
    start ++ "characters in position " ++ toString f.position ++ "-" ++
      toString (f.position + f.count - 1) ++ ": " ++ f.reason

inductive Error where
  | request (e : RequestError)
  | value (f : ValueFault)
  | decode (f : Text.DecodeFault)
  | encode (f : EncodeFault)
  /-- A name with half a character, for which there are no bytes. -/
  | unwritable (name : String)
  | file (f : FileFault)
  /-- A value was asked for an entry or a text operation that it does not have. -/
  | noSuchEntry
  /-- A value was used in a way that does not fit its kind. -/
  | wrongKind
  | missingKey
  | outOfRange
  | unknownEncoding
  /-- The source of names has run out. -/
  | exhausted
  /-- The source of names is empty. -/
  | emptySource
  | tooLarge (text : String)
  | unsupported (text : String)
  /-- A failure of a part from outside. -/
  | foreign (text : String)
  deriving DecidableEq, Repr, Inhabited

namespace Error

def message : Error → String
  | request e => e.message
  | value f => f.message
  | decode f => f.message
  | encode f => f.message
  | unwritable name => "'utf-8' codec can't encode " ++ Text.quoted name ++ ": surrogates not allowed"
  | file f => f.message
  | noSuchEntry | wrongKind | missingKey | outOfRange | unknownEncoding => ""
  | exhausted => "source exhausted"
  | emptySource => "integer modulo by zero"
  | tooLarge text => text
  | unsupported text => text
  | foreign text => text

end Error

end Pseudonym
