import XcodeProject.Object

/-!
# Labels

In the text of a project an id is followed by a comment that says what it stands for.  This comment
is the label of the id.

* Most objects are labelled by their own name (`ownName`).
* A build file is labelled by the file it builds and the phase that lists it.
* A configuration list is labelled by the object that it configures.

The labels of the last two sorts come from other objects: `Labels.ofTable` first gives every object
its own name and then goes through the table in id order, each phase labelling the build files it
lists and each owner labelling its configuration list.  A later object writes over what an earlier
one wrote, and reads the labels as they are then.
-/

namespace XcodeProject.Document

open PropertyList (Value)

/-- The labels of ids. -/
abbrev Labels := Dict String

/-- The last component of the address of a package, without one `.git` at its end. -/
def packageName (address : String) : String :=
  let trimmed := (address.toList.reverse.dropWhile (· = '/')).takeWhile (· ≠ '/')
  let name :=
    if ['t', 'i', 'g', '.'].isPrefixOf trimmed then trimmed.drop 4 else trimmed
  String.ofList name.reverse

/-- A text in double quotes after a kind. -/
def quotedAfter (kind text : String) : String :=
  kind ++ " \"" ++ text ++ "\""

/-- The kinds that are labelled by their name or else by their path. -/
def namedOrLocated : List String :=
  [Kind.fileReference, Kind.group, Kind.variantGroup, Kind.versionGroup, Kind.referenceProxy,
    Kind.synchronizedFolder]

/-- The kinds that are labelled by their name. -/
def named : List String :=
  [Kind.nativeTarget, Kind.aggregateTarget, Kind.legacyTarget, Kind.buildConfiguration]

/-- The label that an object has by itself, whatever other objects there are. -/
def ownName (object : Object) : Option String :=
  let kind := object.kind
  let name := object.text? "name"
  if kind = Kind.project then some "Project object"
  else if kind ∈ namedOrLocated then name <|> object.text? "path"
  else if kind ∈ named then name
  else if kind = Kind.containerItemProxy ∨ kind = Kind.targetDependency then some kind
  else if kind = Kind.packageProduct then object.text? "productName"
  else if kind = Kind.remotePackage then
    (object.text? "repositoryURL").map fun address => quotedAfter kind (packageName address)
  else if kind = Kind.localPackage then
    (object.text? "relativePath").map (quotedAfter kind)
  else (Kind.phaseTitles.lookup kind).map name.getD

/-- The id of what a build file builds: its file or, when it has no entry for one, its product. -/
def builtId? (buildFile : Object) : Option ObjectId :=
  (buildFile.lookup "fileRef" <|> buildFile.lookup "productRef").bind Value.string?

namespace Labels

/-- The objects' own names. -/
def ownNames (table : ObjectTable) : Labels :=
  table.filterMap fun (id, value) =>
    (value.dictionary?.bind ownName).map fun name => (id, name)

/-- The label of a build file that a phase labelled `phase` lists. -/
def buildFileLabel (table : ObjectTable) (labels : Labels) (phase : String) (id : ObjectId) :
    String :=
  let built := ((table.object? id).bind builtId?).bind (labels.lookup ·)
  built.getD "(null)" ++ " in " ++ phase

/-- The kind is one of a build phase, whether `Kind.phaseTitles` lists it or not. -/
def isPhaseKind (kind : String) : Bool :=
  "BuildPhase".toList.isSuffixOf kind.toList

/-- A phase labels the build files that it lists. -/
def addPhase (table : ObjectTable) (labels : Labels) (id : ObjectId) (object : Object) : Labels :=
  if isPhaseKind object.kind then
    let phase := (labels.lookup id).getD ""
    (object.ids "files").foldl
      (fun labels file => Dict.insert labels file (buildFileLabel table labels phase file)) labels
  else labels

/-- The name under which an object owns a configuration list. -/
def ownerName (projectName : Option String) (object : Object) : String :=
  if object.kind = Kind.project then projectName.getD "" else (object.text? "name").getD ""

/-- An object labels its configuration list. -/
def addOwner (table : ObjectTable) (projectName : Option String) (labels : Labels)
    (object : Object) : Labels :=
  match object.text? "buildConfigurationList" with
  | none => labels
  | some list =>
    if table.kind? list = some Kind.configurationList then
      Dict.insert labels list
        ("Build configuration list for " ++
          quotedAfter object.kind (ownerName projectName object))
    else labels

/-- What one entry of the table adds to the labels. -/
def addEntry (table : ObjectTable) (projectName : Option String) (labels : Labels)
    (entry : ObjectId × Value) : Labels :=
  match entry.2.dictionary? with
  | none => labels
  | some object => addOwner table projectName (addPhase table labels entry.1 object) object

/-- The labels of all ids of a table, for a project of the given name. -/
def ofTable (table : ObjectTable) (projectName : Option String) : Labels :=
  table.foldl (addEntry table projectName) (ownNames table)

end Labels

end XcodeProject.Document
