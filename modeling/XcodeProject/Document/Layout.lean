import XcodeProject.Document.Labels
import XcodeProject.PropertyList.Layout

/-!
# Laying out a project

The text of a project is a header line and the root dictionary.  The object table inside it is laid
out in sections, one for each kind, between lines that say where the section begins and ends; inside
a section the objects stand in id order.  Objects of the kinds in `Kind.inline` take one line each.
After an id stands its label as a comment, where the label would not end the comment early.

The layout depends on the table only through its entries and the labels, so adding an object adds
lines and leaves the others as they were.
-/

namespace XcodeProject.Document

open PropertyList (Value Spelling quote tabs)

/-- The first line of every project. -/
def header : String :=
  "// !$*UTF8*$!"

/-- A label inside a comment: the end of a comment is broken up. -/
def maskCommentEnd : List Char → List Char
  | '*' :: '/' :: rest => '(' :: '*' :: ')' :: '/' :: maskCommentEnd rest
  | c :: rest => c :: maskCommentEnd rest
  | [] => []

/-- An id and its label. -/
def reference (labels : Labels) (id : ObjectId) : String :=
  match labels.lookup id with
  | none => quote id
  | some label => quote id ++ " /* " ++ String.ofList (maskCommentEnd label.toList) ++ " */"

/-- The keys whose values are never taken for the id of an object of this project. -/
def foreignIdKeys : List String :=
  ["remoteGlobalIDString", "TestTargetID"]

/-- Inside a project, a string that is the id of an object is written with its label. -/
def spelling (table : ObjectTable) (labels : Labels) : Spelling := fun key text =>
  if (key.all (· ∉ foreignIdKeys)) && Dict.contains table text then reference labels text
  else quote text

/-! ## Sections -/

/-- The kind of an entry of the table; one that is not an object with a kind has the empty kind. -/
def entryKind (value : Value) : String :=
  (value.dictionary?.map Object.kind).getD ""

/-- An entry joins the section of its kind, after those that are there, or begins a new section. -/
def addToSection (entry : ObjectId × Value) :
    List (String × List (ObjectId × Value)) → List (String × List (ObjectId × Value))
  | [] => [(entryKind entry.2, [entry])]
  | (kind, block) :: rest =>
    if kind = entryKind entry.2 then (kind, block ++ [entry]) :: rest
    else (kind, block) :: addToSection entry rest

/-- The entries of a table by kind, in the order in which the kinds come up. -/
def collect (table : ObjectTable) : List (String × List (ObjectId × Value)) :=
  table.foldl (fun blocks entry => addToSection entry blocks) []

/-- The entries of a table by kind, kinds in order and entries of one kind in id order. -/
def sections (table : ObjectTable) : Dict (List (ObjectId × Value)) :=
  (collect table).mergeSort fun block block' => block.1 ≤ block'.1

/-- The lines of one entry of the table. -/
def entryLines (spell : Spelling) (labels : Labels) (entry : ObjectId × Value) : List String :=
  let head := tabs 2 ++ reference labels entry.1 ++ " = "
  if entryKind entry.2 ∈ Kind.inline then [head ++ entry.2.inline spell none ++ ";"]
  else entry.2.lines spell 2 head ";" none

/-- The lines of a section, after an empty line. -/
def sectionLines (spell : Spelling) (labels : Labels)
    (block : String × List (ObjectId × Value)) : List String :=
  ["", "/* Begin " ++ block.1 ++ " section */"] ++ block.2.flatMap (entryLines spell labels)
    ++ ["/* End " ++ block.1 ++ " section */"]

/-- The lines of the object table between its braces. -/
def tableLines (table : ObjectTable) (labels : Labels) : List String :=
  (sections table).flatMap (sectionLines (spelling table labels) labels)

/-! ## The whole text -/

/-- The object table of a root dictionary; a root without one has an empty table. -/
def tableOf (root : Dict Value) : ObjectTable :=
  ((root.lookup "objects").bind Value.dictionary?).getD []

/-- The lines of one entry of the root dictionary. -/
def rootEntryLines (table : ObjectTable) (labels : Labels) (entry : String × Value) :
    List String :=
  let head := tabs 1 ++ quote entry.1 ++ " = "
  match entry with
  | ("objects", .dictionary _) => (head ++ "\x7b") :: tableLines table labels ++ [tabs 1 ++ "\x7d;"]
  | (key, value) => value.lines (spelling table labels) 1 head ";" (some key)

/-- The lines of a project. -/
def lines (root : Dict Value) (projectName : Option String) : List String :=
  let table := tableOf root
  let labels := Labels.ofTable table projectName
  [header, "\x7b"] ++ root.flatMap (rootEntryLines table labels) ++ ["\x7d"]

/-- The text of a project. -/
def write (root : Dict Value) (projectName : Option String) : String :=
  String.join ((lines root projectName).map (· ++ "\n"))

end XcodeProject.Document
