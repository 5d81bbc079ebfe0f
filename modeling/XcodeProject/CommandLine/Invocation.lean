/-!
# Arguments

A command line names a project and then paths, with flags anywhere among them.  Arguments are taken
from left to right and the first that settles the matter does: a request for the version or for help,
or a mistake, makes all that follows irrelevant.  After `--` nothing is a flag any more.  A single
dash is a path, and short flags can share a dash.
-/

namespace XcodeProject.CommandLine

/-- What a run is asked to do. -/
structure Request where
  /-- The path of the project. -/
  project : String
  /-- The paths to register. -/
  paths : List String
  /-- Report in JSON. -/
  json : Bool
  /-- Do not save. -/
  dryRun : Bool
  /-- Log everything. -/
  verbose : Bool
deriving DecidableEq, Repr

/-- What a command line asks for. -/
inductive Invocation where
  /-- To register paths. -/
  | register (request : Request)
  /-- To print the version. -/
  | version
  /-- To print how the program is used. -/
  | help
  /-- Nothing: there is a mistake in it. -/
  | mistake
deriving DecidableEq, Repr

/-- A run is to log everything. -/
def Invocation.isVerbose : Invocation → Bool
  | .register request => request.verbose
  | _ => false

/-- A flag. -/
inductive Flag where
  /-- Report in JSON. -/
  | json
  /-- Do not save. -/
  | dryRun
  /-- Log everything. -/
  | verbose
  /-- Print the version. -/
  | version
  /-- Print how the program is used. -/
  | help
deriving DecidableEq, Repr

/-- The flag with a long name. -/
def Flag.ofName? (name : String) : Option Flag :=
  [("--json", json), ("--dry-run", dryRun), ("--verbose", verbose), ("--version", version),
    ("--help", help)].lookup name

/-- The flag with a short name. -/
def Flag.ofLetter? (letter : Char) : Option Flag :=
  [('v', verbose), ('V', version), ('h', help)].lookup letter

/-- The flags given so far. -/
structure Flags where
  /-- Report in JSON. -/
  json : Bool
  /-- Do not save. -/
  dryRun : Bool
  /-- Log everything. -/
  verbose : Bool
deriving DecidableEq, Repr

/-- No flags. -/
def Flags.unset : Flags :=
  ⟨false, false, false⟩

/-- The flags with one more, or what that one settles; no flag is given twice. -/
def Flags.add (flags : Flags) : Flag → Except Invocation Flags
  | .version => .error .version
  | .help => .error .help
  | .json => if flags.json then .error .mistake else .ok { flags with json := true }
  | .dryRun => if flags.dryRun then .error .mistake else .ok { flags with dryRun := true }
  | .verbose => if flags.verbose then .error .mistake else .ok { flags with verbose := true }

/-- The flags with those of some letters. -/
def Flags.addLetters (flags : Flags) : List Char → Except Invocation Flags
  | [] => .ok flags
  | letter :: rest =>
    match Flag.ofLetter? letter with
    | none => .error .mistake
    | some flag =>
      match flags.add flag with
      | .error settled => .error settled
      | .ok flags => flags.addLetters rest

/-- The flags with those of an argument that begins with a dash. -/
def Flags.addArgument (flags : Flags) (argument : String) : Except Invocation Flags :=
  match argument.toList with
  | '-' :: '-' :: _ =>
    match Flag.ofName? argument with
    | none => .error .mistake
    | some flag => flags.add flag
  | _ :: letters => flags.addLetters letters
  | [] => .ok flags

/-- An argument is read as flags. -/
def isFlagArgument (argument : String) : Bool :=
  argument.toList.head? = some '-' && argument ≠ "-"

namespace Invocation

/-- What flags and positional arguments ask for. -/
def finish (flags : Flags) : List String → Invocation
  | [] => .mistake
  | project :: paths =>
    if project = "" then .mistake
    else .register ⟨project, paths, flags.json, flags.dryRun, flags.verbose⟩

/-- What arguments ask for after others that gave flags and positional arguments. -/
def read (flags : Flags) (positional : List String) : List String → Invocation
  | [] => finish flags positional
  | argument :: rest =>
    if argument = "--" then finish flags (positional ++ rest)
    else if isFlagArgument argument then
      match flags.addArgument argument with
      | .error settled => settled
      | .ok flags => read flags positional rest
    else if argument = "" ∧ positional = [] then .mistake
    else read flags (positional ++ [argument]) rest

/-- What a command line asks for. -/
def ofArguments (arguments : List String) : Invocation :=
  read .unset [] arguments

end Invocation

end XcodeProject.CommandLine
