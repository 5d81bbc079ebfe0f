import XcodeProject.Project.Basic

/-!
# Files

A file system as a value: what stands at each location, and the working directory.  A path is
followed step by step from the root or from the working directory; every step needs a directory to
start from, so a slash after the name of a file leads nowhere.

Not everything that happens to files is decided by what stands where: a disk can be full, or a file
out of reach.  `Conditions` says of each thing that is asked for whether it fails and why.

A file is replaced by way of a draft beside it, which is made, filled, brought to the disk and then
moved over the file.  Each of these steps can fail, and then the draft is removed.  The location of
a file is the directory that the path leads to without its last piece, and that piece, which must be
a name.  The draft goes by its full path from the root, which must not be too long.
-/

namespace XcodeProject

/-- The names on the way from the root. -/
abbrev Location := List String

/-- What stands at a location. -/
inductive Entry where
  /-- A directory; in one that is sealed no file can be made. -/
  | directory (isSealed : Bool)
  /-- A file. -/
  | file (content : ByteArray)
  /-- Neither a directory nor a file. -/
  | device

/-- A file system. -/
structure FileSystem where
  /-- What stands where; the root is a directory without being listed. -/
  entries : List (Location × Entry)
  /-- Where paths that do not begin with a slash start. -/
  workingDirectory : Location

namespace FileSystem

/-- What stands at a location. -/
def entry? (fs : FileSystem) (location : Location) : Option Entry :=
  if location = [] then some (.directory false) else fs.entries.lookup location

/-- Puts an entry at a location, in place of what stood there. -/
def set (fs : FileSystem) (location : Location) (entry : Entry) : FileSystem :=
  { fs with entries := fs.entries.filter (·.1 ≠ location) ++ [(location, entry)] }

/-- Removes what stands at a location. -/
def remove (fs : FileSystem) (location : Location) : FileSystem :=
  { fs with entries := fs.entries.filter (·.1 ≠ location) }

/-- Makes the directories on the way to a location that are missing, and then that location. -/
def makeDirectories (fs : FileSystem) (isSealed : Bool) (parent : Location) :
    List String → FileSystem
  | [] => fs
  | name :: rest =>
    let here := parent ++ [name]
    let made := if (fs.entry? here).isSome then fs else fs.set here (.directory isSealed)
    made.makeDirectories isSealed here rest

/-! ## Paths -/

/-- The longest name of a file, in bytes. -/
def maxNameLength : Nat := 255

/-- The longest path, in bytes. -/
def maxPathLength : Nat := 4095

/-- Follows the pieces of a path from a location. -/
def walk (fs : FileSystem) : List String → Location → Option Location
  | [], here => some here
  | piece :: rest, here =>
    match fs.entry? here with
    | some (.directory _) =>
      if piece = "" ∨ piece = "." then fs.walk rest here
      else if piece = ".." then fs.walk rest here.dropLast
      else
        let there := here ++ [piece]
        if (fs.entry? there).isSome then fs.walk rest there else none
    | _ => none

/-- Where a path starts. -/
def start (fs : FileSystem) (path : String) : Location :=
  if Path.isAbsolute path then [] else fs.workingDirectory

/-- A path in full, from the root. -/
def fullPath (fs : FileSystem) (path : String) : String :=
  if Path.isAbsolute path then path
  else Path.inside ("/" ++ Path.join fs.workingDirectory) path

/-- The path can be followed at all. -/
def isUsable (path : String) : Bool :=
  path ≠ "" && path.toList.all (· ≠ '\x00') && path.utf8ByteSize ≤ maxPathLength

/-- The location that a path leads to, if something stands there. -/
def resolve (fs : FileSystem) (path : String) : Option Location :=
  if isUsable path then fs.walk (Path.pieces path) (fs.start path) else none

/-- What stands where a path leads to. -/
def at? (fs : FileSystem) (path : String) : Option Entry :=
  (fs.resolve path).bind fs.entry?

/-- A name that a file can have. -/
def isFileName (name : String) : Bool :=
  name ≠ "" && name ≠ "." && name ≠ ".." && name.utf8ByteSize ≤ maxNameLength

/-- The location at which a path would put a file. -/
def destination? (fs : FileSystem) (path : String) : Option Location :=
  let pieces := Path.pieces path
  let name := pieces.getLast?.getD ""
  if isUsable path && isFileName name then
    match fs.walk pieces.dropLast (fs.start path) with
    | none => none
    | some directory =>
      match fs.entry? directory, fs.entry? (directory ++ [name]) with
      | some (.directory false), none => some (directory ++ [name])
      | some (.directory false), some (.file _) => some (directory ++ [name])
      | _, _ => none
  else none

/-- The content of the file at a location. -/
def content? (fs : FileSystem) (location : Location) : Option ByteArray :=
  match fs.entry? location with
  | some (.file content) => some content
  | _ => none

/-- The files that are not what they were before: their locations and contents. -/
def changedFiles (before after : FileSystem) : List (Location × ByteArray) :=
  after.entries.filterMap fun (location, entry) =>
    match entry with
    | .file content =>
      if (before.content? location).map ByteArray.data = some content.data then none
      else some (location, content)
    | _ => none

end FileSystem

/-! ## Conditions -/

/-- A step of putting a file in the place of another. -/
inductive WriteStep where
  /-- A draft is made. -/
  | create
  /-- The content is put into the draft. -/
  | fill
  /-- The draft is brought to the disk. -/
  | sync
  /-- The draft is moved over the file. -/
  | rename
deriving DecidableEq, Repr

/-- What a run meets with that the file system does not decide. -/
structure Conditions where
  /-- Nothing can be found out about what is at a path. -/
  isHidden : String → Bool
  /-- Why the file at a path cannot be read, if it cannot. -/
  reading : String → Option String
  /-- The names of drafts, in the order in which they are tried. -/
  draftNames : List String
  /-- Why a step of writing to a path fails, if it does. -/
  writing : String → WriteStep → Option String
  /-- Why a text is not printed to its end, if it is not, and how many of its characters are. -/
  printing : String → Option (Nat × String)

/-- Nothing fails. -/
def Conditions.undisturbed : Conditions where
  isHidden _ := false
  reading _ := none
  draftNames := [".tmp000000"]
  writing _ _ := none
  printing _ := none

/-! ## Writing -/

namespace FileSystem

/-- A draft of this name can be made in a directory, which goes by its full path. -/
def admitsDraft (fs : FileSystem) (directory : Location) (fullPath name : String) : Bool :=
  isFileName name && (Path.inside fullPath name).utf8ByteSize ≤ maxPathLength
    && (fs.entry? (directory ++ [name])).isNone

/-- The location of the draft of a file: beside the file, where nothing stands. -/
def draft? (fs : FileSystem) (conditions : Conditions) (path : String) : Option Location :=
  match fs.resolve (Path.directory path) with
  | none => none
  | some directory =>
    match fs.entry? directory with
    | some (.directory false) =>
      (conditions.draftNames.find?
        (fs.admitsDraft directory (fs.fullPath (Path.directory path)))).map (directory ++ [·])
    | _ => none

/-- Replaces the file at a path by way of a draft.  The file system is the one afterwards. -/
def replaceFile (fs : FileSystem) (conditions : Conditions) (path : String) (content : ByteArray) :
    Except String Unit × FileSystem :=
  match conditions.writing path .create, fs.draft? conditions path with
  | some reason, _ => (.error reason, fs)
  | none, none => (.error "no draft can be made", fs)
  | none, some draft =>
    let created := fs.set draft (.file .empty)
    match conditions.writing path .fill with
    | some reason => (.error reason, created.remove draft)
    | none =>
      let filled := created.set draft (.file content)
      match conditions.writing path .sync with
      | some reason => (.error reason, filled.remove draft)
      | none =>
        match conditions.writing path .rename, filled.destination? path with
        | some reason, _ => (.error reason, filled.remove draft)
        | none, none => (.error "the file cannot be replaced", filled.remove draft)
        | none, some location => (.ok (), (filled.remove draft).set location (.file content))

end FileSystem

/-! ## Projects in files -/

/-- What a path to a project leads to. -/
inductive Found where
  /-- Nothing is there. -/
  | nothing
  /-- Something is there, but no project file. -/
  | noProjectFile
  /-- A project file that cannot be read. -/
  | unreadable (path reason : String)
  /-- A project file. -/
  | file (path : String) (content : ByteArray)

namespace FileSystem

/-- What can be found out about a path. -/
def seen? (fs : FileSystem) (conditions : Conditions) (path : String) : Option Entry :=
  if conditions.isHidden path then none else fs.at? path

/-- Reads a file. -/
def read (conditions : Conditions) (path : String) (content : ByteArray) : Found :=
  match conditions.reading path with
  | some reason => .unreadable path reason
  | none => .file path content

/-- The project file at a path or in the directory there. -/
def findProject (fs : FileSystem) (conditions : Conditions) (path : String) : Found :=
  match fs.seen? conditions path with
  | none => .nothing
  | some (.directory _) =>
    let inner := Path.inside path projectFileName
    match fs.seen? conditions inner with
    | some (.file content) => read conditions inner content
    | _ => .noProjectFile
  | some (.file content) => read conditions path content
  | some .device => .noProjectFile

end FileSystem

namespace Project

/-- The project in what was found at a path. -/
def ofFound (path : String) : Found → Except LoadError Project
  | .nothing => .error ⟨path, .noPath⟩
  | .noProjectFile => .error ⟨path, .noProjectFile⟩
  | .unreadable file reason => .error ⟨file, .unreadable reason⟩
  | .file file content =>
    match String.fromUTF8? content with
    | none => .error ⟨file, .notText⟩
    | some text => load text file

/-- The project at a path. -/
def openAt (fs : FileSystem) (conditions : Conditions) (path : String) :
    Except LoadError Project :=
  ofFound path (fs.findProject conditions path)

/-- Writes a project to a path.  The file system is the one afterwards. -/
def writeTo (p : Project) (fs : FileSystem) (conditions : Conditions) (path : String) :
    Except String Unit × FileSystem :=
  fs.replaceFile conditions path p.write.toUTF8

/-- Writes a project to where it was loaded from.  The file system is the one afterwards. -/
def save (p : Project) (fs : FileSystem) (conditions : Conditions) :
    Except String Unit × FileSystem :=
  p.writeTo fs conditions p.path

end Project

end XcodeProject
