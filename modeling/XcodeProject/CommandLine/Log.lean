import XcodeProject.Event

/-!
# Which events are logged

A limit lets through the events that matter as much as it or more.  The limit comes from a setting of
the environment if there is one that names a limit; otherwise warnings are logged, or everything when
the run is asked to be verbose.
-/

namespace XcodeProject.CommandLine

/-- How much is logged. -/
inductive Limit where
  /-- Nothing. -/
  | off
  /-- Failures, of which there are no events. -/
  | error
  /-- Events of a level and of those that matter more. -/
  | upTo (level : Level)
deriving DecidableEq, Repr

namespace Limit

/-- The limit with a name. -/
def ofName? (name : String) : Option Limit :=
  [("off", off), ("error", error), ("warn", upTo .warn), ("info", upTo .info),
    ("debug", upTo .debug), ("trace", upTo .debug)].lookup (name.map Char.toLower)

/-- The limit under a setting of the environment. -/
def ofSetting (setting : Option String) (verbose : Bool) : Limit :=
  (setting.bind ofName?).getD (upTo (if verbose then .debug else .warn))

/-- An event is logged. -/
def admits : Limit → Event → Bool
  | .upTo .debug, _ => true
  | .upTo .info, event => event.level ≠ .debug
  | .upTo .warn, event => event.level = .warn
  | _, _ => false

end Limit

/-- The lines of the log for events. -/
def logLines (limit : Limit) (events : List Event) : List String :=
  (events.filter limit.admits).map Event.line

end XcodeProject.CommandLine
