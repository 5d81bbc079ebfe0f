import XcodeProject.FileType
import XcodeProject.ObjectId
import XcodeProject.Project.Basic

/-!
# Editing the group tree

A group lists its children by id, in order.  The edits here add a group or a file reference: the new
object goes into the table under a fresh id, and then the id goes to the end of the list of its
owner.

An edit that fails may have changed the project: if the owner's list turns out not to be an array,
the new object is in the table already and stays there, listed nowhere.  Therefore the outcome of an
edit (`Attempt`) always has the project as it is afterwards.
-/

namespace XcodeProject

open PropertyList (Value)

/-- Why an edit is refused. -/
inductive EditFault where
  /-- There is no such object. -/
  | noSuchObject
  /-- The object is of a kind that has no children. -/
  | notGroup (kind : String)
  /-- The object is not a file reference, or there is none. -/
  | notFileReference
  /-- There is no such target. -/
  | noSuchTarget
  /-- The field of the object should be a list. -/
  | notArray (key : String)
deriving DecidableEq, Repr

/-- The wording of a fault. -/
def EditFault.message : EditFault → String
  | .noSuchObject => "no such object"
  | .notGroup kind => "expected a group, found " ++ kind
  | .notFileReference => "not a file reference"
  | .noSuchTarget => "no such target"
  | .notArray key => key ++ " is not an array"

/-- An edit was refused because of an object. -/
structure EditError where
  /-- The object. -/
  id : ObjectId
  /-- What is wrong with it. -/
  fault : EditFault
deriving DecidableEq, Repr

/-- The wording of an edit error. -/
def EditError.message (e : EditError) : String :=
  "Invalid object " ++ e.id ++ ": " ++ e.fault.message

/-- The outcome of something that may be refused, with the state as it is afterwards. -/
structure Attempt (State α : Type) where
  /-- What came of it, or why it was refused. -/
  result : Except EditError α
  /-- The state afterwards, whether it was refused or not. -/
  state : State

/-- Goes on from the state afterwards, unless the attempt was refused. -/
def Attempt.andThen {State α β : Type} (attempt : Attempt State α)
    (next : α → State → Attempt State β) : Attempt State β :=
  match attempt.result with
  | .ok made => next made attempt.state
  | .error e => ⟨.error e, attempt.state⟩

namespace Project

/-! ## The table -/

/-- The project with a value under an id. -/
def setObject (p : Project) (id : ObjectId) (value : Value) : Project :=
  { p with objects := Dict.insert p.objects id value }

/-- Puts `id` at the end of a list of `owner`, which is made if there is none. -/
def appendId (p : Project) (owner : ObjectId) (key : String) (id : ObjectId) :
    Except EditError Project :=
  match p.object? owner with
  | none => .error ⟨owner, .noSuchObject⟩
  | some object =>
    match (object.lookup key).getD (.array []) with
    | .array items =>
      .ok (p.setObject owner
        (.dictionary (Dict.insert object key (.array (items ++ [.string id])))))
    | _ => .error ⟨owner, .notArray key⟩

/-- Puts a new object into the table and its id at the end of a list of `owner`. -/
def addOwned (p : Project) (owner : ObjectId) (key : String) (id : ObjectId) (object : Object) :
    Attempt Project ObjectId :=
  let inserted := p.setObject id (.dictionary object)
  match inserted.appendId owner key id with
  | .ok appended => ⟨.ok id, appended⟩
  | .error e => ⟨.error e, inserted⟩

/-! ## Groups -/

/-- The group under an id. -/
def group (p : Project) (id : ObjectId) : Except EditError Object :=
  match p.object? id with
  | none => .error ⟨id, .noSuchObject⟩
  | some object =>
    if object.kind ∈ Kind.groups then .ok object else .error ⟨id, .notGroup object.kind⟩

/-- What a child of a group is. -/
inductive NodeKind where
  /-- A group. -/
  | group
  /-- A file reference. -/
  | file
  /-- A folder whose files belong to the project without being listed. -/
  | synchronized
  /-- Anything else. -/
  | other
deriving DecidableEq, Repr

/-- The sort of node that objects of a kind are. -/
def NodeKind.ofKind (kind : String) : NodeKind :=
  if kind ∈ Kind.groups then .group
  else if kind = Kind.fileReference then .file
  else if kind = Kind.synchronizedFolder then .synchronized
  else .other

/-- A child of a group. -/
structure Node where
  /-- Its id. -/
  id : ObjectId
  /-- What it is. -/
  kind : NodeKind
  /-- The name it is shown under, if it has one. -/
  name : Option String
  /-- Where it lies in the directory of the group, if it says so. -/
  path : Option String
deriving DecidableEq, Repr

/-- An object as a child of a group. -/
def Node.ofObject (id : ObjectId) (object : Object) : Node where
  id := id
  kind := .ofKind object.kind
  name := object.text? "name"
  path := object.text? "path"

/-- The children of a group, in order; ids without an object are left out. -/
def children (p : Project) (id : ObjectId) : Except EditError (List Node) :=
  (p.group id).map fun object =>
    (object.ids "children").filterMap fun child =>
      (p.object? child).map (Node.ofObject child)

/-- The ids in the list of children that have no object. -/
def danglingChildren (p : Project) (id : ObjectId) : List ObjectId :=
  (p.objects.ids id "children").filter fun child => (p.object? child).isNone

/-! ## New groups and file references -/

/-- A path that is relative to the group. -/
def inGroup : Value :=
  .string "<group>"

/-- A group without children. -/
def groupObject (name path : String) : Object :=
  [("children", .array []), ("isa", .string Kind.group), ("name", .string name),
    ("path", .string path), ("sourceTree", inGroup)]

/-- A file reference. -/
def fileObject (path : String) : Object :=
  [("isa", .string Kind.fileReference), ("lastKnownFileType", .string (FileType.ofName path)),
    ("path", .string path), ("sourceTree", inGroup)]

/-- Adds a child to a group, under an id that comes from its kind, the group and its path. -/
def addChild (p : Project) (parent : ObjectId) (kind path : String) (object : Object) :
    Attempt Project ObjectId :=
  match p.group parent with
  | .error e => ⟨.error e, p⟩
  | .ok _ =>
    p.addOwned parent "children" (ObjectId.fresh p.objects [kind, parent, path]) object

/-- Adds a group to a group. -/
def newGroup (p : Project) (parent : ObjectId) (name path : String) : Attempt Project ObjectId :=
  p.addChild parent Kind.group path (groupObject name path)

/-- Adds a file reference to a group. -/
def newFile (p : Project) (parent : ObjectId) (path : String) : Attempt Project ObjectId :=
  p.addChild parent Kind.fileReference path (fileObject path)

end Project

end XcodeProject
