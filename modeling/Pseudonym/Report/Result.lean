import Pseudonym.Report.Figures
import Pseudonym.Report.Json

namespace Pseudonym.Report

open Number (Double)

/-- Pairs as a mapping. A name that comes twice keeps its first place and its last substitute. -/
def uniquePairs (pairs : List (String × String)) : List (Key × Value) :=
  pairs.foldl (fun entries p => Value.insert entries (.text p.1) (.text p.2)) []

structure FileResult where
  success : Bool
  inputPath : String
  outputPath : Option String := none
  mappingPath : Option String := none
  language : Value := .null
  replaced : Int := 0
  distinct : Int := 0
  errors : List String := []
  warnings : List String := []
  /-- In seconds. -/
  time : Double := ⟨0⟩
  deriving Inhabited

namespace FileResult

/-- A result with an error is no success. -/
def withError (r : FileResult) (text : String) : FileResult :=
  { r with errors := r.errors ++ [text], success := false }

def withWarning (r : FileResult) (text : String) : FileResult :=
  { r with warnings := r.warnings ++ [text] }

def textOrNull : Option String → Value
  | some s => .text s
  | none => .null

def toValue (r : FileResult) : Value :=
  .ofPairs [("success", .bool r.success), ("input_path", .text r.inputPath),
    ("output_path", textOrNull r.outputPath), ("mapping_path", textOrNull r.mappingPath),
    ("language", r.language), ("identifiers_replaced", .int r.replaced),
    ("identifiers_distinct", .int r.distinct), ("errors", .list (r.errors.map .text)),
    ("warnings", .list (r.warnings.map .text)), ("processing_time", .float r.time)]

end FileResult

/-- Which substitutes were used for a file. -/
structure MappingReport where
  source : String
  profile : String
  strategy : String
  timestamp : String
  mapping : List (String × String) := []
  deriving DecidableEq, Repr, Inhabited

def MappingReport.toValue (r : MappingReport) : Value :=
  .ofPairs [("source", .text r.source), ("profile", .text r.profile), ("strategy", .text r.strategy),
    ("timestamp", .text r.timestamp), ("total_identifiers", .int r.mapping.length),
    ("mapping", .map (uniquePairs r.mapping))]

def rule : String := String.ofList (List.replicate 70 '=')

def heading (title : String) : List String := ["\n" ++ rule, title, rule]

/-- How many failed files are listed. -/
def shownErrors : Nat := 5

def seconds (x : Double) : String := x.fixed 2 ++ "s"

def listed (title : String) (items : List String) : List String :=
  if items.isEmpty then [] else ("\n" ++ title) :: items.map ("  - " ++ ·)

/-- The first lines about a single file. -/
def openingLines (r : FileResult) : List String :=
  heading "PROCESSING RESULT" ++ ["Input: " ++ r.inputPath, "Output: " ++ r.outputPath.getD "None"]

/-- The other lines about a single file, with the text of its language. -/
def resultLines (r : FileResult) (language : String) : List String :=
  let mapping := (r.mappingPath.filter fun p => !p.isEmpty).toList
  ["Language: " ++ language, "Status: " ++ (if r.success then "SUCCESS" else "FAILED"),
      "Identifiers replaced: " ++ toString r.replaced,
      "Distinct identifiers: " ++ toString r.distinct] ++
    mapping.map ("Mapping: " ++ ·) ++ ["Processing time: " ++ seconds r.time] ++
    listed "Errors:" r.errors ++ listed "Warnings:" r.warnings ++ [rule]

/-- The lines about several files. -/
def summaryLines (results : List FileResult) : List String :=
  let failed := results.filter fun r => !r.success
  let time := results.foldl (fun (t : Float) r => t + r.time.toFloat) 0.0
  let failure := fun (r : FileResult) => r.inputPath ++ ": " ++ r.errors.headD "Unknown error"
  heading "PROCESSING SUMMARY" ++
    ["Files processed: " ++ toString (results.filter (·.success)).length ++ "/" ++
        toString results.length,
      "Total identifiers replaced: " ++ toString (results.foldl (fun n r => n + r.replaced) 0),
      "Total processing time: " ++ seconds (Double.ofFloat time)] ++
    listed ("Errors (" ++ toString failed.length ++ " files):") ((failed.take shownErrors).map failure) ++
    (if failed.length > shownErrors then
      ["  ... and " ++ toString (failed.length - shownErrors) ++ " more errors"] else []) ++
    [rule]

end Pseudonym.Report
