import Pseudonym.Batch.World
import Pseudonym.Report.Figures
import Pseudonym.Settings.Defaults
import Pseudonym.Settings.Entry

namespace Pseudonym.CommandLine

/-- How a log is set up. -/
structure Logging where
  /-- The path of a log file, as it is opened from a folder. -/
  path : Files.Place → Value → Except Error String
  /-- The lines for notes, by the name of a level and by a format. -/
  lines : String → Value → Except Error (Note → Option String)

/-- What settings say about the log. -/
structure LogSettings where
  level : String
  format : Value
  file : Option Value

namespace LogSettings

def ofSection (settings : Value) : Except Error LogSettings := do
  let chosen (v absent : Value) : Value := if v.truthy then v else absent
  let level ← Settings.entry settings "level" .null
  let format ← Settings.entry settings "format" .null
  let file ← Settings.entry settings "file" .null
  pure {
    level := ← (chosen level (.text "INFO")).asText
    format := chosen format (.text Settings.defaultLogFormat)
    file := if file.truthy then some file else none }

def ofSettings (settings : Value) : Except Error LogSettings := do
  ofSection (← Settings.entry settings "logging" (.map []))

end LogSettings

end Pseudonym.CommandLine
