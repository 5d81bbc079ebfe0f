import Mathlib
import XcodeProject.Proofs.Project.Extension
import XcodeProject.Proofs.Registration.Idempotence

/-!
# Any sequence of operations

`Operation` is all that can be asked of a project that is open: the edits of the group tree and of
targets, with whatever ids the caller has, and the registration of paths.  `Project.perform` does
one operation after the other and goes on when one is refused, with the project as it is then.

Two things hold after any operations.  Nothing that was in the project is lost or altered, but for
lists that have grown at their end (`operations_destroy_nothing`).  And the project can be saved and
loaded as it is (`edited_project_reloads`), even when an operation was refused halfway.
-/

namespace XcodeProject

open PropertyList (Value)

/-- Something that is asked of a project. -/
inductive Operation where
  /-- A new group in a group. -/
  | newGroup (parent : ObjectId) (name path : String)
  /-- A new file reference in a group. -/
  | newFile (group : ObjectId) (path : String)
  /-- A target builds a file; the target need not be one of the project. -/
  | attach (target : Target) (file : ObjectId)
  /-- Paths are registered up to the first that is refused. -/
  | register (paths : List String)
  /-- Paths are registered with one registrar, which goes on after one that is refused. -/
  | registerEach (paths : List String)
deriving DecidableEq, Repr

/-- The project after an operation, whether it was refused or not. -/
def Operation.apply (p : Project) : Operation → Project
  | .newGroup parent name path => (p.newGroup parent name path).state
  | .newFile group path => (p.newFile group path).state
  | .attach target file => (p.attach target file).state
  | .register paths => (p.register paths).state
  | .registerEach paths => (Registrar.registerEach paths (.ofProject p)).2.project

namespace Project

/-- The project after operations one after the other. -/
def perform (p : Project) (operations : List Operation) : Project :=
  operations.foldl Operation.apply p

/-! ## Operations are additions -/

lemma additions_apply (p : Project) (operation : Operation) :
    Additions (fun _ key => key ∈ listFields) p (operation.apply p) := by
  cases operation with
  | newGroup parent name path =>
    exact additions_addChild (fun _ _ => by decide) p parent _ _ (.group name path)
  | newFile group path =>
    exact additions_addChild (fun _ _ => by decide) p group _ _ (.file path)
  | attach target file =>
    exact additions_attach (fun _ _ _ => by decide) (fun _ => by decide) file
  | register paths =>
    exact (additions_register p paths).mono fun _ _ => IsRegisteredList.mem_listFields
  | registerEach paths =>
    exact (additions_registerEach p paths).mono fun _ _ => IsRegisteredList.mem_listFields

lemma additions_perform (p : Project) (operations : List Operation) :
    Additions (fun _ key => key ∈ listFields) p (p.perform operations) := by
  induction operations generalizing p with
  | nil => exact .refl p
  | cons operation rest ih => exact (additions_apply p operation).trans (ih _)

lemma edits_perform (p : Project) (operations : List Operation) :
    Edits listFields p (p.perform operations) :=
  (additions_perform p operations).edits fun _ _ hkey => hkey

/-! ## Nothing is lost -/

/-- Everything that was in a project is there afterwards. -/
structure Preserves (p p' : Project) : Prop where
  /-- The project is saved at the same place. -/
  path_eq : p'.path = p.path
  /-- The name is the same. -/
  name_eq : p'.name = p.name
  /-- The group tree hangs from the same group. -/
  mainGroup_eq : p'.mainGroup = p.mainGroup
  /-- The root dictionary is the same outside the object table. -/
  root_eq : ∀ key, key ≠ "objects" → p'.root.lookup key = p.root.lookup key
  /-- Every id is in the object table. -/
  contains : ∀ id, Dict.contains p.objects id = true → Dict.contains p'.objects id = true
  /-- An entry of the table that is not an object is what it was. -/
  other : ∀ id value, p.objects.lookup id = some value → value.dictionary? = none →
    p'.objects.lookup id = some value
  /-- An object has the entries that it had, except that some of the three lists have ids that were
  not there before at their end. -/
  object : ∀ id object, p.object? id = some object → ∃ object', p'.object? id = some object' ∧
    object.Extends (· ∈ listFields) (p.objects.IsNew p'.objects) object'
  /-- The ids that were not there before are those of objects. -/
  new : ∀ id, p.objects.IsNew p'.objects id → ∃ object, p'.object? id = some object

lemma preserves_of_extends {p p' : Project} (hframe : p' = { p with objects := p'.objects })
    (h : p.objects.Extends (fun _ key => key ∈ listFields) p'.objects) : Preserves p p' where
  path_eq := by rw [hframe]
  name_eq := by rw [hframe]
  mainGroup_eq := by rw [hframe]
  root_eq := by
    intro key hkey
    have hsettings : p'.settings = p.settings := by rw [hframe]
    rw [root, root, Dict.lookup_insert, Dict.lookup_insert, if_neg hkey, if_neg hkey, hsettings]
  contains _ := h.contains
  other := by
    intro id value hvalue hother
    obtain ⟨value', hvalue', hgrown⟩ := h.old id value hvalue
    cases value with
    | string text => rwa [← hgrown]
    | array items => rwa [← hgrown]
    | dictionary object => cases hother
  object _ _ := h.object?
  new := by
    rintro id ⟨hbefore, hafter⟩
    obtain ⟨value, hvalue⟩ := Option.isSome_iff_exists.mp hafter
    obtain ⟨made, -, object, rfl, -⟩ :=
      h.new id value (Dict.lookup_of_contains_eq_false hbefore) hvalue
    exact ⟨object, ObjectTable.object?_eq_some.mpr hvalue⟩

/-- No operations, refused or not, destroy anything that is in a project. -/
theorem operations_destroy_nothing (p : Project) (operations : List Operation) :
    Preserves p (p.perform operations) :=
  preserves_of_extends (edits_perform p operations).frame (additions_perform p operations).extends

/-! ## Saving and loading in between -/

/-- After any operations, refused or not, a project is loaded from its own text as what it is, so
nothing that it can be asked has another answer. -/
theorem edited_project_reloads {text path : String} {p : Project} (hload : load text path = .ok p)
    (hkinds : Document.KindsStayInComments p.objects) (operations : List Operation) :
    load (p.perform operations).write path = .ok (p.perform operations) := by
  obtain ⟨hloadable, hpath⟩ := loadable_of_load hload
  have hedits := edits_perform p operations
  have hsame : (p.perform operations).path = path := by rw [hedits.frame, hpath]
  have hreload := load_write (hedits.loadable hloadable) (hedits.kindsStayInComments hkinds)
  rwa [hsame] at hreload

/-- A group with an awkward name, a file in what is not a group, a target that is not there, and the
sample paths. -/
def sampleOperations : List Operation :=
  [.newGroup "MAIN" "*/" "a\n\"b", .newFile "FILE" "x.m",
    .attach ⟨"GHOST", "", Kind.nativeTarget⟩ "FILE", .register samplePaths]

theorem edited_project_reloads_sample :
    load sampleProject.write sampleProject.path = .ok sampleProject ∧
    Document.KindsStayInComments sampleProject.objects ∧
    load (sampleProject.perform sampleOperations).write sampleProject.path =
      .ok (sampleProject.perform sampleOperations) := by
  have hkinds : Document.KindsStayInComments sampleProject.objects := by decide
  exact ⟨load_sampleProject, hkinds,
    edited_project_reloads load_sampleProject hkinds sampleOperations⟩

end Project

end XcodeProject
