import XcodeProject.Project.Edit

/-!
# Targets and what they build

A target lists its build phases, a phase lists build files, and a build file names the file reference
that it builds.  `attach` makes a target build a file: headers go to the headers phase, all else to
the sources phase, and a phase that the target does not have yet is made.
-/

namespace XcodeProject

open PropertyList (Value)

/-- A target of a project. -/
structure Target where
  /-- Its id. -/
  id : ObjectId
  /-- Its name. -/
  name : String
  /-- Its kind. -/
  kind : String
deriving DecidableEq, Repr

/-- Only native targets compile files. -/
def Target.acceptsFiles (target : Target) : Bool :=
  target.kind = Kind.nativeTarget

/-- A build phase of a target. -/
structure Phase where
  /-- Its id. -/
  id : ObjectId
  /-- Its kind. -/
  kind : String
  /-- It was made for the file that is being attached. -/
  isNew : Bool
deriving DecidableEq, Repr

/-- What attaching a file to a target came to. -/
inductive Attachment where
  /-- The target does not compile files. -/
  | declined
  /-- The phase holds the file already. -/
  | present
  /-- The phase holds the file now, through a new build file. -/
  | added (buildFile : ObjectId) (phase : Phase)
deriving DecidableEq, Repr

/-- The target builds a file that it did not build. -/
def Attachment.isNew : Attachment → Bool
  | .added _ _ => true
  | _ => false

namespace Project

/-- The target under an id, if the object there is one. -/
def target? (p : Project) (id : ObjectId) : Option Target :=
  match p.object? id with
  | none => none
  | some object =>
    if object.kind ∈ Kind.targets then
      some ⟨id, (object.text? "name").getD "", object.kind⟩
    else none

/-- The targets of a project, in the order in which it lists them. -/
def targets (p : Project) : List Target :=
  (p.objects.ids p.rootObject "targets").filterMap p.target?

/-- The file references that a target builds, phase by phase. -/
def buildFiles (p : Project) (target : ObjectId) : List ObjectId :=
  (p.objects.ids target "buildPhases").flatMap fun phase =>
    (p.objects.ids phase "files").filterMap fun buildFile =>
      p.objects.text? buildFile "fileRef"

/-- A phase without build files. -/
def phaseObject (kind : String) : Object :=
  [("buildActionMask", .string "2147483647"), ("files", .array []), ("isa", .string kind),
    ("runOnlyForDeploymentPostprocessing", .string "0")]

/-- A build file. -/
def buildFileObject (file : ObjectId) : Object :=
  [("fileRef", .string file), ("isa", .string Kind.buildFile)]

/-- The kind of the phase that a file goes to. -/
def phaseKind (path : String) : String :=
  if FileType.isHeader path then Kind.headersPhase else Kind.sourcesPhase

/-- The first phase of a kind that a target lists, or a new one at the end of its list. -/
def ensurePhase (p : Project) (target : ObjectId) (kind : String) : Attempt Project Phase :=
  match p.object? target with
  | none => ⟨.error ⟨target, .noSuchTarget⟩, p⟩
  | some object =>
    match (object.ids "buildPhases").find? fun phase => p.objects.kind? phase = some kind with
    | some phase => ⟨.ok ⟨phase, kind, false⟩, p⟩
    | none =>
      (p.addOwned target "buildPhases" (ObjectId.fresh p.objects [kind, target])
        (phaseObject kind)).andThen fun phase p => ⟨.ok ⟨phase, kind, true⟩, p⟩

/-- The phase lists a build file for the file. -/
def phaseHolds (p : Project) (phase file : ObjectId) : Bool :=
  (p.objects.ids phase "files").any fun buildFile =>
    p.objects.text? buildFile "fileRef" = some file

/-- Adds a build file for the file to a phase that has none. -/
def addBuildFile (p : Project) (phase : Phase) (file : ObjectId) : Attempt Project Attachment :=
  if p.phaseHolds phase.id file then ⟨.ok .present, p⟩
  else
    (p.addOwned phase.id "files"
      (ObjectId.fresh p.objects [Kind.buildFile, phase.id, file])
      (buildFileObject file)).andThen fun buildFile p => ⟨.ok (.added buildFile phase), p⟩

/-- The file reference under an id. -/
def fileReference? (p : Project) (id : ObjectId) : Option Object :=
  (p.object? id).filter fun object => object.text? "isa" = some Kind.fileReference

/-- Makes a target build a file. -/
def attach (p : Project) (target : Target) (file : ObjectId) : Attempt Project Attachment :=
  if target.acceptsFiles then
    match p.fileReference? file with
    | none => ⟨.error ⟨file, .notFileReference⟩, p⟩
    | some reference =>
      (p.ensurePhase target.id (phaseKind ((reference.text? "path").getD ""))).andThen
        fun phase p => p.addBuildFile phase file
  else ⟨.ok .declined, p⟩

end Project

end XcodeProject
