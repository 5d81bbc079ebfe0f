import XcodeProject.CommandLine.Invocation
import XcodeProject.Project.Edit
import XcodeProject.Registration.Report
import XcodeProject.Text.Basic
import XcodeProject.Text.Json

/-!
# What a run prints

A run that succeeds prints its report, one that fails prints why; either as text or, when asked, as a
JSON object with the exit code in it.
-/

namespace XcodeProject.CommandLine

open Text (Json)

/-- Why a run failed. -/
inductive Failure where
  /-- The project could not be loaded. -/
  | load (error : LoadError)
  /-- A path could not be registered. -/
  | register (error : EditError)
  /-- The project could not be saved. -/
  | save (file reason : String)
  /-- The report could not be printed. -/
  | print (reason : String)
deriving DecidableEq, Repr

namespace Failure

/-- The exit code of a run that failed. -/
def exitCode : Failure → Nat
  | .save _ _ => 2
  | _ => 1

/-- What was being done to the project, and what went wrong. -/
def message (project : String) : Failure → String
  | .load error => "Failed to open project at " ++ project ++ ": " ++ error.message
  | .register error => "Failed to register paths in " ++ project ++ ": " ++ error.message
  | .save file reason =>
    "Failed to save " ++ file ++ ": Failed to save project to " ++ file ++ ": " ++ reason
  | .print reason => reason

/-- What a run that failed prints. -/
def output (request : Request) (failure : Failure) : String :=
  let message := failure.message request.project
  if request.json then
    (Json.object [("success", .bool false), ("result_code", .number failure.exitCode),
      ("error", .string message)]).text
  else "Error: " ++ message ++ "\n"

end Failure

/-! ## Reports -/

/-- A path in a JSON report. -/
def registrationJson (r : Registration) : Json :=
  .object
    ([("path", .string r.path), ("outcome", .string r.outcome.word)]
      ++ (match r.file with
        | none => []
        | some file => [("file", .string file)])
      ++ [("groups_created", .list (r.groupsCreated.map .string)),
        ("targets", .list (r.targets.map .string))])

/-- A report in JSON. -/
def reportJson (request : Request) (report : Report) : Json :=
  .object
    [("success", .bool true), ("result_code", .number 0), ("project", .string request.project),
      ("saved", .bool (!request.dryRun)), ("files_created", .number report.filesCreated),
      ("groups_created", .number report.groupsCreated),
      ("paths", .list (report.paths.map registrationJson))]

/-- The line of a path in a report. -/
def registrationLine (r : Registration) : String :=
  match r.outcome with
  | .created =>
    if r.targets.isEmpty then "Added " ++ r.path
    else "Added " ++ r.path ++ " (" ++ ", ".intercalate r.targets ++ ")"
  | .existing => "Unchanged " ++ r.path
  | .skipped => "Skipped " ++ Text.quoted r.path ++ " (no file name)"

/-- The lines of a report. -/
def reportLines (request : Request) (report : Report) : List String :=
  report.paths.flatMap (fun r => r.groupsCreated.map ("Created group " ++ ·) ++ [registrationLine r])
    ++ [(if request.dryRun then "Dry run, not saved: " else "Saved ") ++ request.project ++ " ("
      ++ toString report.filesCreated ++ " files, " ++ toString report.groupsCreated
      ++ " groups added)"]

/-- What a run that succeeds prints. -/
def reportOutput (request : Request) (report : Report) : String :=
  if request.json then (reportJson request report).text
  else String.join ((reportLines request report).map (· ++ "\n"))

/-- What a run prints that is asked for the version. -/
def versionOutput : String :=
  "pbxreg 0.2.1\n"

/-- What a run prints that is asked for help. -/
def helpOutput : String :=
  "Add files to an Xcode project, with groups that follow their directories\n\n"
    ++ "Usage: pbxreg [OPTIONS] <PROJECT> [PATHS]...\n\n"
    ++ "Options:\n"
    ++ "      --json     Output results as JSON\n"
    ++ "      --dry-run  Register in memory but do not save\n"
    ++ "  -v, --verbose  Enable debug logging\n"
    ++ "  -h, --help     Print help\n"
    ++ "  -V, --version  Print version\n"

/-- What a run prints whose arguments have a mistake. -/
def mistakeOutput : String :=
  "error: invalid arguments\n\n"
    ++ "Usage: pbxreg [OPTIONS] <PROJECT> [PATHS]...\n\n"
    ++ "For more information, try '--help'.\n"

end XcodeProject.CommandLine
