/-
This file holds the report of a run, as a text file, as a summary for the console and as JSON.
-/

import EngineDocs.Calendar
import EngineDocs.FileTree.Write
import EngineDocs.Generation.Progress

namespace EngineDocs

/-- What a run did. Warnings tell of single modules and headers that were left out, errors of
indices that could not be written. -/
structure Report where
  engineVersion : String
  outputDir : String
  modulesFound : Nat := 0
  modulesProcessed : Nat := 0
  modulesRendered : Nat := 0
  modulesUnchanged : Nat := 0
  filesParsed : Nat := 0
  declarations : Nat := 0
  stages : List StageSummary := []
  warnings : List String := []
  errors : List String := []
  elapsed : Duration := {}
  deriving DecidableEq

namespace Report

/-- Whether something could not be written. -/
def hasErrors (report : Report) : Bool := !report.errors.isEmpty

/-- The name of the report file. -/
def fileName : String := "generation_report.txt"

/-- At most this many warnings are shown on the console. -/
def consoleWarningLimit : Nat := 10

/-- One line for each text, indented. -/
def itemLines (items : List String) : List String := items.map fun item => "  - " ++ item

/-- The line of a stage. -/
def stageLine (summary : StageSummary) : String :=
  "  " ++ summary.stage ++ ": " ++ Text.number summary.modules ++ " modules, " ++
    Text.number summary.failures ++ " failed, " ++ Text.number summary.declarations ++
    " declarations in " ++ summary.elapsed.text

/-- A heading and lines below it, with what comes behind them; nothing when there are no lines. -/
def block (heading : String) (lines : List String) (closing : String) : String :=
  if lines.isEmpty then ""
  else heading ++ "\n" ++ String.join (lines.map (· ++ "\n")) ++ closing

/-- The text of the report file. -/
def text (report : Report) (moment : Moment) : String :=
  "UE API Documentation Generation Report\n" ++
  "Generated: " ++ moment.displayText ++ "\n" ++
  "Engine Version: " ++ report.engineVersion ++ "\n" ++
  "Modules found: " ++ Text.number report.modulesFound ++ "\n" ++
  "Modules processed: " ++ Text.number report.modulesProcessed ++ "\n" ++
  "Modules rendered: " ++ Text.number report.modulesRendered ++ "\n" ++
  "Modules unchanged: " ++ Text.number report.modulesUnchanged ++ "\n" ++
  "Headers parsed: " ++ Text.number report.filesParsed ++ "\n" ++
  "Declarations: " ++ Text.number report.declarations ++ "\n" ++
  "Warnings: " ++ Text.number report.warnings.length ++ "\n" ++
  "Errors: " ++ Text.number report.errors.length ++ "\n\n" ++
  block "Stages:" (report.stages.map stageLine) "\n" ++
  block "Warnings:" (itemLines report.warnings) "\n" ++
  block "Errors:" (itemLines report.errors) ""

/-- The lines about the warnings on the console. -/
def warningLines (warnings : List String) : List String :=
  if warnings.isEmpty then []
  else
    ["Warnings (" ++ Text.number warnings.length ++ "):"] ++
    itemLines (warnings.take consoleWarningLimit) ++
    if consoleWarningLimit < warnings.length then
      ["  ... " ++ Text.number (warnings.length - consoleWarningLimit) ++ " more, see " ++ fileName]
    else []

/-- The lines about the errors on the console. -/
def errorLines (errors : List String) : List String :=
  if errors.isEmpty then []
  else ["Errors (" ++ Text.number errors.length ++ "):"] ++ itemLines errors

/-- The line that sets off the heading of the summary. -/
def rule : String := String.ofList (List.replicate 50 '=')

/-- The summary for the console. -/
def summary (report : Report) : String :=
  String.intercalate "\n" (
    [rule, "Generation complete", rule,
      "Output: " ++ report.outputDir,
      "Modules: " ++ Text.number report.modulesProcessed ++ " processed, " ++
        Text.number report.modulesRendered ++ " rendered, " ++
        Text.number report.modulesUnchanged ++ " unchanged",
      "Declarations: " ++ Text.number report.declarations ++ " from " ++
        Text.number report.filesParsed ++ " headers in " ++ report.elapsed.text] ++
    warningLines report.warnings ++ errorLines report.errors)

/-- The JSON form, which leaves out the time that was taken. -/
def toJson (report : Report) : Json :=
  .obj [("engine_version", .str report.engineVersion), ("output_dir", .str report.outputDir),
    ("modules_found", .nat report.modulesFound),
    ("modules_processed", .nat report.modulesProcessed),
    ("modules_rendered", .nat report.modulesRendered),
    ("modules_unchanged", .nat report.modulesUnchanged),
    ("files_parsed", .nat report.filesParsed),
    ("declarations", .nat report.declarations),
    ("stages", .arr (report.stages.map StageSummary.toJson)),
    ("warnings", Json.strings report.warnings), ("errors", Json.strings report.errors)]

/-- Writes the report file into the output directory. -/
def changes (report : Report) (moment : Moment) : List Change :=
  [.directory report.outputDir,
    .file (Path.join report.outputDir fileName) (report.text moment)]

end Report

end EngineDocs
