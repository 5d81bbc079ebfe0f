import XcodeProject.CommandLine.Log
import XcodeProject.CommandLine.Output
import XcodeProject.FileSystem
import XcodeProject.Registration.Registrar

/-!
# A run

A run loads a project, registers paths in it, saves it unless told not to, and prints a report.
Everything up to the saving is a function of the request and of what was found at the project's path
(`prepare`).  What a run needs from outside is a `Host`, and `Invocation.run` is for all hosts: the
disk and the terminal, or a file system under some conditions (`Host.ofConditions`).

The report is printed after the project was saved.  If that fails the run has failed, and the
project stays saved.
-/

namespace XcodeProject.CommandLine

/-- What a run came to. -/
structure Result where
  /-- The exit code. -/
  exitCode : Nat
  /-- What is to be said about a failure. -/
  errors : String
  /-- What happened, in order. -/
  events : List Event

/-- The result of a run that succeeded. -/
def Result.success (events : List Event) : Result :=
  ⟨0, "", events⟩

/-- The result of a run that failed. -/
def Result.ofFailure (request : Request) (failure : Failure) (events : List Event) : Result :=
  ⟨failure.exitCode, failure.output request, events⟩

/-! ## Hosts -/

/-- What a run needs from outside. -/
structure Host (m : Type → Type) where
  /-- Looks for a project at a path. -/
  find : String → m Found
  /-- Replaces the file at a path by one with a text. -/
  replace : String → String → m (Except String Unit)
  /-- Prints a text. -/
  print : String → m (Except String Unit)

/-- Files, and what was printed so far. -/
structure World where
  /-- The files. -/
  files : FileSystem
  /-- What was printed. -/
  output : String

/-- The host that finds and replaces files under some conditions. -/
def Host.ofConditions (conditions : Conditions) : Host (StateM World) where
  find path := fun world => (world.files.findProject conditions path, world)
  replace path text := fun world =>
    let (result, files) := world.files.replaceFile conditions path text.toUTF8
    (result, { world with files })
  print text := fun world =>
    match conditions.printing text with
    | none => (.ok (), { world with output := world.output ++ text })
    | some (count, reason) =>
      let part := String.ofList (text.toList.take count)
      (.error reason, { world with output := world.output ++ part })

/-! ## Carrying out a request -/

/-- A project with the paths of a request registered. -/
structure Prepared where
  /-- The project. -/
  project : Project
  /-- What registering the paths came to. -/
  report : Report

/-- Loads the project that was found and registers the paths of a request; with what happened. -/
def prepare (request : Request) (found : Found) : Except Failure Prepared × List Event :=
  match Project.ofFound request.project found with
  | .error e => (.error (.load e), [])
  | .ok p =>
    let attempt := Registrar.registerAll request.paths (.ofProject p)
    let events :=
      [.projectLoaded p.path, .registering p.path request.paths.length] ++ attempt.state.journal
    match attempt.result with
    | .error e => (.error (.register e), events)
    | .ok registrations => (.ok ⟨attempt.state.project, ⟨registrations⟩⟩, events)

variable {m : Type → Type} [Monad m]

/-- Saves the project of a request, unless the run is a dry one; with what happened. -/
def Request.save (host : Host m) (request : Request) (p : Project) : m (Except Failure Event) :=
  if request.dryRun then pure (.ok .saveSkipped)
  else do
    match ← host.replace p.path p.write with
    | .error reason => return .error (.save p.path reason)
    | .ok () => return .ok (.projectSaved p.path p.objectCount)

/-- Prints a report, which is the last thing that a run does. -/
def Request.conclude (host : Host m) (request : Request) (report : Report) (events : List Event) :
    m Result := do
  match ← host.print (reportOutput request report) with
  | .error reason => return .ofFailure request (.print reason) events
  | .ok () => return .success events

/-- Carries out a request. -/
def Request.run (host : Host m) (request : Request) : m Result := do
  let found ← host.find request.project
  match prepare request found with
  | (.error failure, events) => return .ofFailure request failure events
  | (.ok prepared, events) =>
    match ← request.save host prepared.project with
    | .error failure => return .ofFailure request failure events
    | .ok last => request.conclude host prepared.report (events ++ [last])

/-- Carries out a command line.  Whether a version or a help text gets out makes no difference. -/
def Invocation.run (host : Host m) : Invocation → m Result
  | .register request => request.run host
  | .version => do
    let _ ← host.print versionOutput
    return .success []
  | .help => do
    let _ ← host.print helpOutput
    return .success []
  | .mistake => return ⟨2, mistakeOutput, []⟩

/-- Carries out a command line on files under some conditions, with nothing printed yet. -/
def Invocation.runOn (invocation : Invocation) (conditions : Conditions) (files : FileSystem) :
    Result × World :=
  invocation.run (.ofConditions conditions) ⟨files, ""⟩

end XcodeProject.CommandLine
