import XcodeProject.Text.Basic

/-!
# Paths

A path is names with slashes between them.  Slashes in a row or at the end make no difference, and
neither does the name `.`, except at the very beginning, where a slash and `.` are steps of their
own.  The name `..` is a step up, which is not taken together with the step before it.

The last step of a path, if it leads to a name, is the file name (`fileName?`); the path without its
last step is the `parent?`, which is a text and is read as a path again.
-/

namespace XcodeProject.Path

/-- The pieces of a text between slashes; `piece` holds the characters of the piece that is being
read, last first. -/
def cut : List Char → List Char → List (List Char)
  | piece, [] => [piece.reverse]
  | piece, c :: rest => if c = '/' then piece.reverse :: cut [] rest else cut (c :: piece) rest

/-- All pieces of a path between slashes, empty ones included. -/
def pieces (path : String) : List String :=
  (cut [] path.toList).map String.ofList

/-- The names of a path. -/
def names (path : String) : List String :=
  (pieces path).filter fun name => name ≠ "" && name ≠ "."

/-- Names with slashes between them. -/
def join (names : List String) : String :=
  "/".intercalate names

/-- The path of something inside a directory; no second slash is added. -/
def inside (directory name : String) : String :=
  if directory.toList.getLast? = some '/' then directory ++ name else directory ++ "/" ++ name

/-- The path begins at the root. -/
def isAbsolute (path : String) : Bool :=
  path.toList.head? = some '/'

/-! ## Steps -/

/-- A step of a path. -/
inductive Step where
  /-- To the root, by a slash at the beginning. -/
  | root
  /-- To nowhere, by `.` at the beginning. -/
  | stay
  /-- To what holds the directory, by `..`. -/
  | up
  /-- To what has a name in the directory. -/
  | into (name : String)
deriving DecidableEq, Repr

/-- The step of a piece; empty pieces and `.` make none. -/
def Step.ofPiece? (piece : String) : Option Step :=
  if piece = "" ∨ piece = "." then none
  else if piece = ".." then some .up
  else some (.into piece)

/-- The name of a step, by which `..` counts as a name like any other. -/
def Step.name? : Step → Option String
  | .root => none
  | .stay => none
  | .up => some ".."
  | .into name => some name

/-- What a path begins with that is not in its names. -/
def start? (path : String) : Option Step :=
  if isAbsolute path then some .root
  else if (pieces path).head? = some "." then some .stay
  else none

/-- The steps of a path. -/
def steps (path : String) : List Step :=
  (start? path).toList ++ (pieces path).filterMap Step.ofPiece?

/-- The text of what is left of a path: the pieces, or what the path begins with if there are none.
-/
def textOfPieces (start : Option Step) : List String → String
  | [] =>
    match start with
    | some .root => "/"
    | some .stay => "."
    | _ => ""
  | kept => join kept

/-- The last step of a path, where it is to a name. -/
def fileName? (path : String) : Option String :=
  match (steps path).getLast? with
  | some (.into name) => some name
  | _ => none

/-- Pieces without those at the end that make no step. -/
def trimEnd (pieces : List String) : List String :=
  (pieces.reverse.dropWhile fun piece => (Step.ofPiece? piece).isNone).reverse

/-- What stands in a path before its last step; there is nothing before the root, and nothing at all
in a path without steps. -/
def parent? (path : String) : Option String :=
  match (steps path).getLast? with
  | none => none
  | some .root => none
  | some .stay => some ""
  | some _ => some (textOfPieces (start? path) (trimEnd (trimEnd (pieces path)).dropLast))

/-! ## Files -/

/-- A path to a file: the directories on the way and the file's own name. -/
structure Parts where
  /-- The names of the directories, outermost first. -/
  directories : List String
  /-- The name of the file. -/
  fileName : String
deriving DecidableEq, Repr

/-- The directories and the file name of a path.  The directories are the steps of the parent, less
those that have no name. -/
def split (path : String) : Option Parts :=
  match fileName? path with
  | none => none
  | some name => some ⟨((parent? path).toList.flatMap steps).filterMap Step.name?, name⟩

/-- The directory of a file in the words of its path. -/
def directory (path : String) : String :=
  match parent? path with
  | none => "."
  | some parent => if parent = "" then "." else parent

/-- The name of the bundle that holds the file at `path`: the directory right above the file,
without the extension `xcodeproj`, which it must have. -/
def bundleName? (path : String) : Option String :=
  match (parent? path).bind fileName? with
  | none => none
  | some bundle =>
    match Text.splitAtLast '.' bundle.toList with
    | some (c :: stem, ext) =>
      if ext = "xcodeproj".toList then some (String.ofList (c :: stem)) else none
    | _ => none

end XcodeProject.Path
