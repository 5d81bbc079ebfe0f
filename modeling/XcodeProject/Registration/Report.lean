import XcodeProject.Object

/-!
# What registration reports

For every path a report says what happened to it, which file reference it has, which groups were made
for it and which targets build it now; the totals are counted from that.
-/

namespace XcodeProject

/-- What happened to a path. -/
inductive Outcome where
  /-- A file reference was made. -/
  | created
  /-- The file reference was there, or the path leads into a synchronized folder. -/
  | existing
  /-- The path has no file name. -/
  | skipped
deriving DecidableEq, Repr

/-- The word for an outcome. -/
def Outcome.word : Outcome → String
  | .created => "created"
  | .existing => "existing"
  | .skipped => "skipped"

/-- What registering a path came to. -/
structure Registration where
  /-- The path as it was given. -/
  path : String
  /-- What happened to it. -/
  outcome : Outcome
  /-- Its file reference, if it has one. -/
  file : Option ObjectId
  /-- The groups that were made for it, as paths from the main group. -/
  groupsCreated : List String
  /-- The names of the targets that its file was attached to. -/
  targets : List String
deriving DecidableEq, Repr

/-- What registering some paths came to, path by path. -/
structure Report where
  /-- The paths, in the order in which they were given. -/
  paths : List Registration
deriving DecidableEq, Repr

namespace Report

/-- How many paths had an outcome. -/
def count (report : Report) (outcome : Outcome) : Nat :=
  report.paths.countP (·.outcome = outcome)

/-- How many file references were made. -/
def filesCreated (report : Report) : Nat :=
  report.count .created

/-- How many paths were registered already. -/
def filesExisting (report : Report) : Nat :=
  report.count .existing

/-- How many paths have no file name. -/
def skipped (report : Report) : Nat :=
  report.count .skipped

/-- How many groups were made. -/
def groupsCreated (report : Report) : Nat :=
  (report.paths.flatMap (·.groupsCreated)).length

/-- The project is not what it was. -/
def changed (report : Report) : Bool :=
  0 < report.filesCreated || 0 < report.groupsCreated

end Report

end XcodeProject
