import Mathlib
import XcodeProject.Proofs.Document.RoundTrip
import XcodeProject.Proofs.Project.Growth

/-!
# A project that is saved can be loaded again

`Loadable` is what loading a project makes sure of.  A loadable project that is written is loaded
back as it was (`load_write`), and edits keep a project loadable (`Edits.loadable`), since none of
them touches the strings that loading looks at.
-/

namespace XcodeProject.Project

open PropertyList Document

/-- What loading makes sure of. -/
@[mk_iff]
structure Loadable (p : Project) : Prop where
  /-- The name is that of the bundle. -/
  name_eq : p.name = Path.bundleName? p.path
  /-- The settings are canonical. -/
  settings : (Value.dictionary p.settings).Canonical
  /-- The object table is held apart. -/
  noObjects : p.settings.lookup "objects" = none
  /-- The object table is canonical. -/
  objects : (Value.dictionary p.objects).Canonical
  /-- The settings name the root object. -/
  rootObject : Object.text? p.settings "rootObject" = some p.rootObject
  /-- The root object describes a project. -/
  rootKind : p.objects.kind? p.rootObject = some Kind.project
  /-- The root object names the main group. -/
  mainGroup : p.objects.text? p.rootObject "mainGroup" = some p.mainGroup
  /-- The main group is a group. -/
  mainKind : ∃ kind ∈ Kind.groups, p.objects.kind? p.mainGroup = some kind

instance (p : Project) : Decidable p.Loadable :=
  decidable_of_iff' _ (loadable_iff p)

/-! ## Loading and writing -/

lemma canonical_erase {root : Dict Value} (h : (Value.dictionary root).Canonical) (key : String) :
    (Value.dictionary (Dict.erase root key)).Canonical := by
  rw [Value.canonical_dictionary] at h ⊢
  refine ⟨h.1.erase key, ?_⟩
  intro entry hmem
  exact h.2 entry (List.mem_of_mem_filter hmem)

lemma loadable_of_ofRoot {path : String} {root : Dict Value} {p : Project}
    (hroot : (Value.dictionary root).Canonical) (h : ofRoot path root = .ok p) :
    p.Loadable ∧ p.path = path := by
  unfold ofRoot at h
  split at h
  · cases h
  next objects hobjects =>
  split at h
  · cases h
  next rootObject hrootObject =>
  split at h
  · cases h
  next hrootKind =>
  split at h
  · cases h
  next mainGroup hmainGroup =>
  split at h
  · next hmainKind =>
    cases h
    obtain ⟨value, hlookup, hvalue⟩ := Option.bind_eq_some_iff.mp hobjects
    have htable : value = .dictionary objects := by
      cases value <;> simp_all [Value.dictionary?]
    subst htable
    refine ⟨⟨rfl, canonical_erase hroot _, ?_, ?_, ?_, ?_, hmainGroup, ?_⟩, rfl⟩
    · rw [Dict.lookup_erase, if_pos rfl]
    · rw [Value.canonical_dictionary] at hroot
      exact hroot.2 _ (Dict.mem_of_lookup hlookup)
    · rw [Object.text?, Dict.lookup_erase, if_neg (by decide)]
      exact hrootObject
    · exact not_not.mp hrootKind
    · cases hkind : ObjectTable.kind? objects mainGroup with
      | none => simp [hkind] at hmainKind
      | some kind => exact ⟨kind, by simpa [hkind] using hmainKind, rfl⟩
  · cases h

theorem loadable_of_load {text path : String} {p : Project} (h : load text path = .ok p) :
    p.Loadable ∧ p.path = path := by
  unfold load ofText at h
  split at h
  · cases h
  · next root hparse =>
    have hroot := canonical_of_parse hparse
    cases hofRoot : ofRoot path root with
    | error fault =>
      rw [hofRoot] at h
      cases h
    | ok loaded =>
      rw [hofRoot] at h
      cases h
      exact loadable_of_ofRoot hroot hofRoot
  · cases h

lemma sorted_of_load {text path : String} {p : Project} (h : load text path = .ok p) :
    Dict.Sorted p.objects :=
  (Value.canonical_dictionary.mp (loadable_of_load h).1.objects).1

lemma tableOf_root (p : Project) : tableOf p.root = p.objects := by
  simp [tableOf, root, Dict.lookup_insert, Value.dictionary?]

lemma Loadable.ofRoot_root {p : Project} (h : p.Loadable) : ofRoot p.path p.root = .ok p := by
  have htable : (p.root.lookup "objects").bind Value.dictionary? = some p.objects := by
    simp [root, Dict.lookup_insert, Value.dictionary?]
  have hrootObject : Object.text? p.root "rootObject" = some p.rootObject := by
    rw [Object.text?, root, Dict.lookup_insert, if_neg (by decide)]
    exact h.rootObject
  have hsettings : Dict.erase p.root "objects" = p.settings :=
    Dict.erase_insert (Value.canonical_dictionary.mp h.settings).1 h.noObjects _
  obtain ⟨kind, hgroup, hkind⟩ := h.mainKind
  unfold ofRoot
  simp [htable, hrootObject, h.rootKind, h.mainGroup, hkind, hgroup, hsettings, ← h.name_eq]

/-- A project that is written is loaded as it was. -/
theorem load_write {p : Project} (h : p.Loadable) (hkinds : KindsStayInComments p.objects) :
    load p.write p.path = .ok p := by
  have hroot : (Value.dictionary p.root).Canonical := canonical_insert h.settings h.objects _
  have hparse := parse_write hroot (by rwa [tableOf_root]) p.name
  unfold load ofText write
  rw [hparse]
  simp only
  rw [h.ofRoot_root]
  rfl

/-! ## What edits keep -/

lemma NewObject.canonical {object : Object} (h : NewObject object) :
    (Value.dictionary object).Canonical := by
  rw [Value.canonical_dictionary]
  cases h with
  | group name path =>
    refine ⟨?_, by simp [groupObject, inGroup]⟩
    show List.Pairwise (· < ·) ["children", "isa", "name", "path", "sourceTree"]
    decide
  | file path =>
    refine ⟨?_, by simp [fileObject, inGroup]⟩
    show List.Pairwise (· < ·) ["isa", "lastKnownFileType", "path", "sourceTree"]
    decide
  | phase path =>
    refine ⟨?_, by simp [phaseObject]⟩
    show List.Pairwise (· < ·)
      ["buildActionMask", "files", "isa", "runOnlyForDeploymentPostprocessing"]
    decide
  | buildFile file =>
    refine ⟨?_, by simp [buildFileObject]⟩
    show List.Pairwise (· < ·) ["fileRef", "isa"]
    decide

lemma canonical_object? {p : Project} (h : (Value.dictionary p.objects).Canonical)
    {id : ObjectId} {object : Object} (hobject : p.object? id = some object) :
    (Value.dictionary object).Canonical := by
  have hlookup := ObjectTable.object?_eq_some.mp hobject
  exact (Value.canonical_dictionary.mp h).2 _ (Dict.mem_of_lookup hlookup)

namespace Change

variable {fields : List String} {p p' : Project}

lemma canonical (h : Change fields p p') (hp : (Value.dictionary p.objects).Canonical) :
    (Value.dictionary p'.objects).Canonical := by
  cases h with
  | add hfresh hnew => exact canonical_insert hp hnew.canonical _
  | @append owner id object key items hkey howner hitems hid =>
    have hobject := canonical_object? hp howner
    have hlist : (Value.array items).Canonical := by
      rw [← hitems]
      cases hlookup : object.lookup key with
      | none => simp
      | some value =>
        exact (Value.canonical_dictionary.mp hobject).2 _ (Dict.mem_of_lookup hlookup)
    refine canonical_insert hp (canonical_insert hobject ?_ _) _
    rw [Value.canonical_array] at hlist ⊢
    simpa [or_imp, forall_and] using hlist

lemma loadable (h : Change fields p p') (hp : p.Loadable) : p'.Loadable := by
  have hobjects := h.canonical hp.objects
  have hkind := h.text?_eq hp.rootKind
  have hmain := h.text?_eq hp.mainGroup
  obtain ⟨kind, hgroup, hmainKind⟩ := hp.mainKind
  have hmainKind := h.text?_eq hmainKind
  rw [h.frame]
  exact ⟨hp.name_eq, hp.settings, hp.noObjects, hobjects, hp.rootObject, hkind, hmain,
    kind, hgroup, hmainKind⟩

lemma kindsStayInComments (h : Change fields p p') (hp : KindsStayInComments p.objects) :
    KindsStayInComments p'.objects := by
  have hnewKinds : ∀ kind ∈ newKinds, ¬ commentEnd <:+: kind.toList := by decide
  intro id kind hkind
  obtain ⟨object', hobject', hisa⟩ := Option.bind_eq_some_iff.mp hkind
  rcases h.old_or_new hobject' with ⟨object, hobject, hagrees⟩ | ⟨-, hnew⟩
  · apply hp id
    exact Option.bind_eq_some_iff.mpr ⟨object, hobject, (hagrees.text "isa").symm.trans hisa⟩
  · apply hnewKinds
    have heq : object'.kind = kind := by rw [Object.kind, hisa, Option.getD_some]
    exact heq ▸ hnew.kind_mem

end Change

/-- Edits keep a project loadable. -/
theorem Edits.loadable {fields : List String} {p p' : Project} (h : Edits fields p p')
    (hp : p.Loadable) : p'.Loadable := by
  induction h with
  | refl => exact hp
  | tail _ hchange ih => exact hchange.loadable ih

theorem Edits.kindsStayInComments {fields : List String} {p p' : Project} (h : Edits fields p p')
    (hp : KindsStayInComments p.objects) : KindsStayInComments p'.objects := by
  induction h with
  | refl => exact hp
  | tail _ hchange ih => exact hchange.kindsStayInComments ih

end XcodeProject.Project
