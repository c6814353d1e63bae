namespace Pseudonym

inductive Level where
  | debug
  | info
  | warning
  | error
  | critical
  deriving DecidableEq, Repr, Inhabited

namespace Level

def name : Level → String
  | debug => "DEBUG"
  | info => "INFO"
  | warning => "WARNING"
  | error => "ERROR"
  | critical => "CRITICAL"

def weight : Level → Nat
  | debug => 10
  | info => 20
  | warning => 30
  | error => 40
  | critical => 50

end Level

/-- The part of the program that a note comes from. -/
inductive Topic where
  | reading
  | profiles
  | walking
  | redaction
  | settings
  deriving DecidableEq, Repr, Inhabited

def Topic.name : Topic → String
  | reading => "code_redact.parsing.adapter"
  | profiles => "code_redact.parsing.grammar"
  | walking => "code_redact.walker"
  | redaction => "code_redact.redactor"
  | settings => "code_redact.config.config_manager"

structure Note where
  level : Level
  topic : Topic
  text : String
  deriving DecidableEq, Repr, Inhabited

abbrev Log := List Note

/-- The notes of at least a level. -/
def Log.atLeast (log : Log) (level : Level) : Log :=
  log.filter fun n => level.weight ≤ n.level.weight

end Pseudonym
