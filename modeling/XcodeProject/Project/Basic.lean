import XcodeProject.Document.Layout
import XcodeProject.Path
import XcodeProject.PropertyList.Reader

/-!
# Projects

A project is a property list whose root dictionary has a table of objects and names one of them as
the root object; the root object names the main group, from which the group tree hangs.

`Project.load` checks exactly this much, in this order, and takes everything else as it comes.  The
object table is held apart from the other entries of the root, which no edit touches; `Project.root`
puts them together again.
-/

namespace XcodeProject

open PropertyList (Value ParseError)

/-- A project in memory. -/
structure Project where
  /-- Where the project is saved. -/
  path : String
  /-- The name of the bundle that holds it, if it lies in one. -/
  name : Option String
  /-- The entries of the root dictionary other than the object table. -/
  settings : Dict Value
  /-- The object table. -/
  objects : ObjectTable
  /-- The id of the object that describes the project. -/
  rootObject : ObjectId
  /-- The id of the group that the group tree hangs from. -/
  mainGroup : ObjectId
deriving DecidableEq, Repr

/-- Why there is no project. -/
inductive LoadFault where
  /-- Nothing is at the path. -/
  | noPath
  /-- No project file is at the path or in the directory there. -/
  | noProjectFile
  /-- The project file cannot be read. -/
  | unreadable (reason : String)
  /-- The project file is not text. -/
  | notText
  /-- The text is not a property list. -/
  | malformed (error : ParseError)
  /-- The property list is not a dictionary. -/
  | notDictionary
  /-- There is no object table. -/
  | noObjects
  /-- No root object is named. -/
  | noRootObject
  /-- The root object is of another kind, or there is none. -/
  | wrongRootObject (id : ObjectId)
  /-- The root object names no main group. -/
  | noMainGroup
  /-- The main group is not a group, or there is none. -/
  | wrongMainGroup (id : ObjectId)
deriving DecidableEq, Repr

/-- The name of the file in a bundle that holds the project. -/
def projectFileName : String :=
  "project.pbxproj"

/-- The wording of a fault. -/
def LoadFault.message : LoadFault → String
  | .noPath => "path does not exist"
  | .noProjectFile => projectFileName ++ " not found"
  | .unreadable reason => reason
  | .notText => "stream did not contain valid UTF-8"
  | .malformed error => error.message
  | .notDictionary => "top level is not a dictionary"
  | .noObjects => "missing objects table"
  | .noRootObject => "missing rootObject"
  | .wrongRootObject id => "rootObject " ++ id ++ " is not a PBXProject"
  | .noMainGroup => "project has no mainGroup"
  | .wrongMainGroup id => "mainGroup " ++ id ++ " is not a group"

/-- A project could not be loaded from a path. -/
structure LoadError where
  /-- Where the project was looked for. -/
  path : String
  /-- Why there is none. -/
  fault : LoadFault
deriving DecidableEq, Repr

/-- The wording of a load error. -/
def LoadError.message (e : LoadError) : String :=
  "Failed to load project at " ++ e.path ++ ": " ++ e.fault.message

namespace Project

/-- The object under an id. -/
def object? (p : Project) (id : ObjectId) : Option Object :=
  p.objects.object? id

/-- How many entries the object table has. -/
def objectCount (p : Project) : Nat :=
  p.objects.length

/-- The root dictionary. -/
def root (p : Project) : Dict Value :=
  Dict.insert p.settings "objects" (.dictionary p.objects)

/-- The text of a project. -/
def write (p : Project) : String :=
  Document.write p.root p.name

/-- The project with a root dictionary. -/
def ofRoot (path : String) (root : Dict Value) : Except LoadFault Project :=
  match (root.lookup "objects").bind Value.dictionary? with
  | none => .error .noObjects
  | some objects =>
    match Object.text? root "rootObject" with
    | none => .error .noRootObject
    | some rootObject =>
      if ObjectTable.kind? objects rootObject ≠ some Kind.project then
        .error (.wrongRootObject rootObject)
      else
        match ObjectTable.text? objects rootObject "mainGroup" with
        | none => .error .noMainGroup
        | some mainGroup =>
          if (ObjectTable.kind? objects mainGroup).any (· ∈ Kind.groups) then
            .ok
              { path := path
                name := Path.bundleName? path
                settings := Dict.erase root "objects"
                objects := objects
                rootObject := rootObject
                mainGroup := mainGroup }
          else .error (.wrongMainGroup mainGroup)

/-- The project that a text describes. -/
def ofText (path text : String) : Except LoadFault Project :=
  match PropertyList.parse text with
  | .error error => .error (.malformed error)
  | .ok (.dictionary root) => ofRoot path root
  | .ok _ => .error .notDictionary

/-- The project that a text describes, to be saved at `path`. -/
def load (text path : String) : Except LoadError Project :=
  (ofText path text).mapError (LoadError.mk path)

end Project

end XcodeProject
