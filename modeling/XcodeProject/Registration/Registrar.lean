import XcodeProject.Event
import XcodeProject.Project.Target
import XcodeProject.Registration.Report

/-!
# Registering paths

To register a path is to make the group tree follow it.  From the main group down, the group for each
directory is found among the children of the group before it or made there; then the file reference is
found or made in the last group.  A new file reference is attached to every target.

A child is found by its path, and the first child with a path counts.  Below a synchronized folder
nothing is made, since its files belong to the project anyway.

A `Registrar` goes through many paths.  It remembers the children of each group it has looked into
(`ChildIndex`) and keeps that up to date with what it makes, so the group's list is gone through once.
It keeps going after a path that was refused, with what it remembers.
-/

namespace XcodeProject

open Project (Node NodeKind)

/-! ## The children of a group by path -/

/-- The children of a group by path, for the three sorts of children that registration looks for. -/
structure ChildIndex where
  /-- The groups. -/
  groups : Dict ObjectId
  /-- The file references. -/
  files : Dict ObjectId
  /-- The synchronized folders. -/
  synchronized : Dict ObjectId
deriving DecidableEq, Repr

namespace ChildIndex

/-- No children. -/
def empty : ChildIndex :=
  ⟨[], [], []⟩

/-- Adds an id under a path that has none. -/
def addFirst (index : Dict ObjectId) (path : String) (id : ObjectId) : Dict ObjectId :=
  if Dict.contains index path then index else Dict.insert index path id

/-- Adds a child, unless one of its sort with the same path came before. -/
def add (index : ChildIndex) (node : Node) : ChildIndex :=
  match node.path, node.kind with
  | some path, .group => { index with groups := addFirst index.groups path node.id }
  | some path, .file => { index with files := addFirst index.files path node.id }
  | some path, .synchronized =>
    { index with synchronized := addFirst index.synchronized path node.id }
  | _, _ => index

/-- The children of a group by path. -/
def ofNodes (nodes : List Node) : ChildIndex :=
  nodes.foldl add empty

end ChildIndex

/-! ## The registrar -/

/-- A project whose group tree is being extended. -/
structure Registrar where
  /-- The project. -/
  project : Project
  /-- The targets that new files are attached to. -/
  targets : List Target
  /-- The children of the groups that were looked into. -/
  index : Dict ChildIndex
  /-- What has happened, in order. -/
  journal : List Event
deriving DecidableEq, Repr

namespace Registrar

/-- The registrar of a project that has looked at nothing but its targets. -/
def ofProject (p : Project) : Registrar where
  project := p
  targets := p.targets
  index := []
  journal := []

/-- Adds events to the journal. -/
def record (r : Registrar) (events : List Event) : Registrar :=
  { r with journal := r.journal ++ events }

/-- The children of a group by path, as remembered or else as the project lists them. -/
def childIndex (r : Registrar) (group : ObjectId) : Attempt Registrar ChildIndex :=
  match r.index.lookup group with
  | some index => ⟨.ok index, r⟩
  | none =>
    match r.project.children group with
    | .error e => ⟨.error e, r⟩
    | .ok nodes =>
      let index := ChildIndex.ofNodes nodes
      ⟨.ok index, { r with index := Dict.insert r.index group index }.record
        ((r.project.danglingChildren group).map (.danglingChild group))⟩

/-- Makes a group for a directory in a group whose children are `index`. -/
def createGroup (r : Registrar) (parent : ObjectId) (index : ChildIndex) (directory : String) :
    Attempt Registrar ObjectId :=
  match r.project.newGroup parent directory directory with
  | ⟨.error e, p⟩ => ⟨.error e, { r with project := p }⟩
  | ⟨.ok id, p⟩ =>
    let known := { index with groups := Dict.insert index.groups directory id }
    let remembered := Dict.insert (Dict.insert r.index parent known) id ChildIndex.empty
    ⟨.ok id, { r with project := p, index := remembered }.record
      [.groupCreated id parent directory]⟩

/-- Makes a file reference in a group whose children are `index`. -/
def createFile (r : Registrar) (parent : ObjectId) (index : ChildIndex) (fileName : String) :
    Attempt Registrar ObjectId :=
  match r.project.newFile parent fileName with
  | ⟨.error e, p⟩ => ⟨.error e, { r with project := p }⟩
  | ⟨.ok id, p⟩ =>
    let known := { index with files := Dict.insert index.files fileName id }
    ⟨.ok id, { r with project := p, index := Dict.insert r.index parent known }.record
      [.fileCreated id parent fileName]⟩

/-! ## The way down -/

/-- Where the directories of a path lead. -/
inductive Way where
  /-- To a group. -/
  | toGroup (id : ObjectId)
  /-- Into a synchronized folder. -/
  | intoFolder (id : ObjectId)
deriving DecidableEq, Repr

/-- Follows directories down from a group and makes the groups that are missing.  `walked` are the
directories before these, and `created` the groups made there; the result has where the way leads and
all groups made. -/
def descend (group : ObjectId) (walked created : List String) :
    List String → Registrar → Attempt Registrar (Way × List String)
  | [], r => ⟨.ok (.toGroup group, created), r⟩
  | directory :: rest, r =>
    (r.childIndex group).andThen fun index r =>
      let here := walked ++ [directory]
      match index.groups.lookup directory, index.synchronized.lookup directory with
      | some next, _ => descend next here created rest r
      | none, some folder => ⟨.ok (.intoFolder folder, created), r⟩
      | none, none =>
        (r.createGroup group index directory).andThen fun next r =>
          descend next here (created ++ [Path.join here]) rest r

/-! ## Targets -/

/-- What attaching a file to a target has to say. -/
def attachmentEvents (target : Target) (fileName : String) : Attachment → List Event
  | .declined => [.targetDeclined target.name]
  | .present => []
  | .added buildFile phase =>
    (if phase.isNew then [.phaseCreated phase.id target.id phase.kind] else [])
      ++ [.fileAttached buildFile target.name fileName]

/-- Attaches a file to targets; the result is the names of those that did not build it before. -/
def attachAll (file : ObjectId) (fileName : String) :
    List Target → Registrar → Attempt Registrar (List String)
  | [], r => ⟨.ok [], r⟩
  | target :: rest, r =>
    match r.project.attach target file with
    | ⟨.error e, p⟩ => ⟨.error e, { r with project := p }⟩
    | ⟨.ok attachment, p⟩ =>
      (attachAll file fileName rest
        ({ r with project := p }.record (attachmentEvents target fileName attachment))).andThen
        fun names r => ⟨.ok (if attachment.isNew then target.name :: names else names), r⟩

/-! ## Paths -/

/-- Registers a file name in a group. -/
def registerFile (r : Registrar) (path : String) (group : ObjectId) (fileName : String)
    (created : List String) : Attempt Registrar Registration :=
  (r.childIndex group).andThen fun index r =>
    match index.files.lookup fileName with
    | some file =>
      ⟨.ok ⟨path, .existing, some file, created, []⟩, r.record [.alreadyRegistered path file]⟩
    | none =>
      (r.createFile group index fileName).andThen fun file r =>
        (attachAll file fileName r.targets r).andThen fun names r =>
          ⟨.ok ⟨path, .created, some file, created, names⟩,
            r.record [.fileRegistered path file names.length]⟩

/-- Registers a path. -/
def register (r : Registrar) (path : String) : Attempt Registrar Registration :=
  match Path.split path with
  | none => ⟨.ok ⟨path, .skipped, none, [], []⟩, r.record [.pathSkipped path]⟩
  | some parts =>
    (descend r.project.mainGroup [] [] parts.directories r).andThen fun (way, created) r =>
      match way with
      | .intoFolder folder =>
        ⟨.ok ⟨path, .existing, none, created, []⟩, r.record [.insideSynchronized path folder]⟩
      | .toGroup group => r.registerFile path group parts.fileName created

/-- Registers paths one after the other, and stops at the first that is refused. -/
def registerAll : List String → Registrar → Attempt Registrar (List Registration)
  | [], r => ⟨.ok [], r⟩
  | path :: rest, r =>
    (r.register path).andThen fun registration r =>
      (registerAll rest r).andThen fun registrations r => ⟨.ok (registration :: registrations), r⟩

/-- Registers paths one after the other, and goes on after one that is refused. -/
def registerEach : List String → Registrar → List (Except EditError Registration) × Registrar
  | [], r => ([], r)
  | path :: rest, r =>
    let attempt := r.register path
    let (results, r) := registerEach rest attempt.state
    (attempt.result :: results, r)

end Registrar

/-- Registers paths in a project, and stops at the first that is refused. -/
def Project.register (p : Project) (paths : List String) : Attempt Project Report :=
  let attempt := Registrar.registerAll paths (.ofProject p)
  ⟨attempt.result.map Report.mk, attempt.state.project⟩

end XcodeProject
