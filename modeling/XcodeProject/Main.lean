import XcodeProject.CommandLine.Run

/-!
# The program

The host that is the disk and the terminal, and a run on it.  A project file is replaced by moving a
finished file over it, so that it is never half written.
-/

namespace XcodeProject.Program

open XcodeProject.CommandLine

/-- Does something that may fail, and gives the reason if it does. -/
def attempt {α : Type} (action : IO α) : IO (Except String α) := do
  try
    return .ok (← action)
  catch e => return .error (toString e)

/-- Reads a project file. -/
def read (path : String) : IO Found := do
  match ← attempt (IO.FS.readBinFile (System.mkFilePath [path])) with
  | .error reason => return .unreadable path reason
  | .ok content => return .file path content

/-- What the path of a project leads to on the disk. -/
def findProject (path : String) : IO Found := do
  let there := System.mkFilePath [path]
  unless ← there.pathExists do return .nothing
  let file := if ← there.isDir then Path.inside path projectFileName else path
  let there := System.mkFilePath [file]
  unless ← there.pathExists do return .noProjectFile
  match ← attempt there.metadata with
  | .error _ => return .noProjectFile
  | .ok metadata => if metadata.type == .file then read file else return .noProjectFile

/-- Replaces a file as a whole.  The draft is a new file, so nothing else is lost. -/
def replaceFile (path text : String) : IO Unit := do
  let draft := (← IO.currentDir) / Path.directory path
    / (".tmp" ++ toString (← IO.rand 100000 999999))
  let handle ← IO.FS.Handle.mk draft .writeNew
  try
    handle.putStr text
    handle.flush
    IO.FS.rename draft path
  catch e =>
    IO.FS.removeFile draft
    throw e

/-- Prints a text to the terminal. -/
def print (text : String) : IO Unit := do
  let terminal ← IO.getStdout
  terminal.putStr text
  terminal.flush

/-- The disk and the terminal. -/
def host : Host IO where
  find := findProject
  replace path text := attempt (replaceFile path text)
  print text := attempt (print text)

/-- Prints the log. -/
def printLog (verbose : Bool) (events : List Event) : IO Unit := do
  let limit := Limit.ofSetting (← IO.getEnv "PBXREG_LOG") verbose
  for line in logLines limit events do
    IO.eprintln line

end XcodeProject.Program

open XcodeProject XcodeProject.CommandLine in
/-- Carries out a command line.  What cannot be said about a failure is dropped. -/
def main (arguments : List String) : IO UInt32 := do
  let invocation := Invocation.ofArguments arguments
  let result ← invocation.run Program.host
  let _ ← Program.attempt do
    Program.printLog invocation.isVerbose result.events
    IO.eprint result.errors
  return result.exitCode.toUInt32
