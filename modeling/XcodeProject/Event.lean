import XcodeProject.Object
import XcodeProject.Text.Basic

/-!
# Events

What a run has to say about itself while it works.  An event has a level, and its line in the log is
the level, a message, and fields.  Texts from outside stand in quotes; ids, paths of projects and
names of targets stand as they are.
-/

namespace XcodeProject

/-- How much an event matters. -/
inductive Level where
  /-- Something may be wrong. -/
  | warn
  /-- What a run did. -/
  | info
  /-- How it did it. -/
  | debug
deriving DecidableEq, Repr

/-- The word for a level. -/
def Level.word : Level → String
  | .warn => "WARN"
  | .info => "INFO"
  | .debug => "DEBUG"

/-- Something that happened. -/
inductive Event where
  /-- A project was read from a file. -/
  | projectLoaded (path : String)
  /-- Some paths are going to be registered. -/
  | registering (project : String) (paths : Nat)
  /-- A path has no file name. -/
  | pathSkipped (path : String)
  /-- A group lists a child that is not there. -/
  | danglingChild (group child : ObjectId)
  /-- A group was made. -/
  | groupCreated (id parent : ObjectId) (path : String)
  /-- A file reference was made. -/
  | fileCreated (id parent : ObjectId) (path : String)
  /-- A path leads into a synchronized folder. -/
  | insideSynchronized (path : String) (folder : ObjectId)
  /-- The file of a path was there. -/
  | alreadyRegistered (path : String) (file : ObjectId)
  /-- A target does not compile files. -/
  | targetDeclined (target : String)
  /-- A build phase was made. -/
  | phaseCreated (id target : ObjectId) (kind : String)
  /-- A target builds a file now. -/
  | fileAttached (buildFile : ObjectId) (target file : String)
  /-- The file of a path was not there and is now. -/
  | fileRegistered (path : String) (file : ObjectId) (targets : Nat)
  /-- The project is not to be saved. -/
  | saveSkipped
  /-- The project was saved. -/
  | projectSaved (path : String) (objects : Nat)
deriving DecidableEq, Repr

namespace Event

/-- How much an event matters. -/
def level : Event → Level
  | .pathSkipped _ => .warn
  | .danglingChild _ _ => .warn
  | .saveSkipped => .info
  | .projectSaved _ _ => .info
  | _ => .debug

/-- What an event says. -/
def message : Event → String
  | .projectLoaded _ => "Loaded project"
  | .registering _ _ => "Registering paths"
  | .pathSkipped _ => "Skipping path without a file name"
  | .danglingChild _ _ => "Skipping dangling child reference"
  | .groupCreated _ _ _ => "Created group"
  | .fileCreated _ _ _ => "Created file reference"
  | .insideSynchronized _ _ => "Inside a synchronized folder"
  | .alreadyRegistered _ _ => "Already registered"
  | .targetDeclined _ => "Target does not take files"
  | .phaseCreated _ _ _ => "Created build phase"
  | .fileAttached _ _ _ => "Attached file to target"
  | .fileRegistered _ _ _ => "Registered file"
  | .saveSkipped => "Dry run, skipping save"
  | .projectSaved _ _ => "Saved project"

/-- The fields of an event, in order. -/
def fields : Event → List (String × String)
  | .projectLoaded path => [("path", path)]
  | .registering project paths => [("project", project), ("paths", toString paths)]
  | .pathSkipped path => [("path", Text.quoted path)]
  | .danglingChild group child => [("group", group), ("child", Text.quoted child)]
  | .groupCreated id parent path =>
    [("group", id), ("parent", parent), ("path", Text.quoted path)]
  | .fileCreated id parent path => [("file", id), ("group", parent), ("path", Text.quoted path)]
  | .insideSynchronized path folder => [("path", Text.quoted path), ("folder", folder)]
  | .alreadyRegistered path file => [("path", Text.quoted path), ("file", file)]
  | .targetDeclined target => [("target", target)]
  | .phaseCreated id target kind =>
    [("phase", id), ("target", target), ("isa", Text.quoted kind)]
  | .fileAttached buildFile target file =>
    [("build_file", buildFile), ("target", target), ("file", file)]
  | .fileRegistered path file targets =>
    [("path", Text.quoted path), ("file", file), ("targets", toString targets)]
  | .saveSkipped => []
  | .projectSaved path objects => [("path", path), ("objects", toString objects)]

/-- The line of an event in the log. -/
def line (event : Event) : String :=
  event.level.word ++ " " ++ event.message
    ++ String.join (event.fields.map fun (key, value) => " " ++ key ++ "=" ++ value)

end Event

end XcodeProject
