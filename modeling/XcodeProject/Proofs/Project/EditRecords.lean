import Mathlib
import XcodeProject.Proofs.Project.Insertions

/-!
# The record of an edit

An edit that is not refused tells by its result what it has inserted.  A new group or a new file
reference has the id that is returned; an attachment names the build file and the phase, and says
whether the phase is new.  So the record of the edit can be read off its result (`inserts_newGroup`,
`inserts_newFile`, `inserts_attach`).  For attachments this takes an argument: a target that holds
the file already must not have got a phase on the way.

From a record one can count.  Insertions change no string of an object that was there, so the number
of objects with a string under a key grows by the insertions that have this string
(`Inserts.countText_eq`).  Kinds of objects are counted in this way, and so are build files by the
file that they name.  A project is what it was if and only if nothing is on record
(`Inserts.root_eq_iff`).
-/

namespace XcodeProject

open PropertyList (Value)

/-! ## Records -/

/-- The insertion of a phase, if it was made for the file. -/
def Phase.record (target : ObjectId) (phase : Phase) : List Project.Inserted :=
  if phase.isNew then [⟨.phase target phase.kind, phase.id, true⟩] else []

/-- The insertions that made a target build a file. -/
def Attachment.record (target file : ObjectId) : Attachment → List Project.Inserted
  | .added buildFile phase => phase.record target ++ [⟨.buildFile phase.id file, buildFile, true⟩]
  | _ => []

lemma Phase.mem_record {target : ObjectId} {phase : Phase} {m : Project.Inserted} :
    m ∈ phase.record target ↔
      phase.isNew = true ∧ m = ⟨.phase target phase.kind, phase.id, true⟩ := by
  unfold record
  split
  · next hnew => simp [hnew]
  · next hold => simp [hold]

namespace Project

variable {p q : Project}

lemma inserts_newGroup {parent id : ObjectId} {name path : String}
    (h : p.newGroup parent name path = ⟨.ok id, q⟩) :
    Inserts p [⟨.group parent name path, id, true⟩] q := by
  rw [newGroup_eq] at h
  split at h
  · cases h
  · next object hgroup => exact inserts_of_insert_eq_ok trivial (group_eq_ok.mp hgroup).1 h

lemma inserts_newFile {parent id : ObjectId} {path : String}
    (h : p.newFile parent path = ⟨.ok id, q⟩) : Inserts p [⟨.file parent path, id, true⟩] q := by
  rw [newFile_eq] at h
  split at h
  · cases h
  · next object hgroup => exact inserts_of_insert_eq_ok trivial (group_eq_ok.mp hgroup).1 h

section Attach

variable {target : ObjectId} {path : String} {phase : Phase}

lemma inserts_ensurePhase (h : p.ensurePhase target (phaseKind path) = ⟨.ok phase, q⟩) :
    Inserts p (phase.record target) q := by
  rw [ensurePhase_eq] at h
  split at h
  · cases h
  next object hobject =>
  split at h
  · cases h
    exact .none
  · obtain ⟨id, made, hinsert, hphase⟩ := Attempt.andThen_eq_ok h
    cases hphase
    exact inserts_of_insert_eq_ok (i := .phase target (phaseKind path)) ⟨path, rfl⟩ hobject hinsert

/-- A phase that was made for a file has nothing in it. -/
lemma phaseHolds_of_isNew (h : p.ensurePhase target (phaseKind path) = ⟨.ok phase, q⟩)
    (hnew : phase.isNew = true) (file : ObjectId) : q.phaseHolds phase.id file = false := by
  have hinserts := inserts_ensurePhase h
  rw [Phase.record, if_pos hnew] at hinserts
  have hbefore : p.object? phase.id = none :=
    object?_of_contains_eq_false (hinserts.nodup.2 _ List.mem_cons_self)
  have hold : p.objects.ids phase.id "files" = [] := by
    show ((p.object? phase.id).map (Object.ids · "files")).getD [] = []
    rw [hbefore]
    rfl
  have hempty : q.objects.ids phase.id "files" = [] := by
    rw [hinserts.ids_eq, hold]
    simp [listedBy, Insertion.key]
  simp [phaseHolds, hempty]

lemma inserts_addBuildFile {file : ObjectId} {kind : String} {attachment : Attachment}
    (hphase : p.objects.kind? phase.id = some kind)
    (h : p.addBuildFile phase file = ⟨.ok attachment, q⟩) :
    (p.phaseHolds phase.id file = true ∧ attachment = .present ∧ q = p) ∨
      ∃ buildFile, attachment = .added buildFile phase ∧
        Inserts p [⟨.buildFile phase.id file, buildFile, true⟩] q := by
  rw [addBuildFile_eq] at h
  split at h
  · next hholds =>
    cases h
    exact .inl ⟨hholds, rfl, rfl⟩
  · obtain ⟨id, made, hinsert, hadded⟩ := Attempt.andThen_eq_ok h
    cases hadded
    obtain ⟨object, hobject, -⟩ := object?_of_kind? hphase
    exact .inr ⟨id, rfl, inserts_of_insert_eq_ok trivial hobject hinsert⟩

theorem inserts_attach {target : Target} {file : ObjectId} {attachment : Attachment}
    (h : p.attach target file = ⟨.ok attachment, q⟩) :
    Inserts p (attachment.record target.id file) q := by
  unfold attach at h
  split at h
  · split at h
    · cases h
    · obtain ⟨phase, middle, hphase, hadd⟩ := Attempt.andThen_eq_ok h
      have hfirst := inserts_ensurePhase hphase
      rcases inserts_addBuildFile (kind?_ensurePhase hphase) hadd with
        ⟨hholds, rfl, rfl⟩ | ⟨buildFile, rfl, hsecond⟩
      · -- The phase was there: one that had just been made would not hold the file.
        have hold : phase.isNew ≠ true := by
          intro hnew
          rw [phaseHolds_of_isNew hphase hnew] at hholds
          cases hholds
        rwa [Phase.record, if_neg hold] at hfirst
      · exact hfirst.trans hsecond
  · cases h
    exact .none

end Attach

end Project

/-! ## Counting -/

namespace Insertion

/-- The kind of the new object. -/
def kind : Insertion → String
  | .group _ _ _ => Kind.group
  | .file _ _ => Kind.fileReference
  | .phase _ kind => kind
  | .buildFile _ _ => Kind.buildFile

lemma text?_isa (i : Insertion) : i.object.text? "isa" = some i.kind := by
  cases i <;> rfl

lemma Proper.kind_mem {i : Insertion} (h : i.Proper) : i.kind ∈ Project.newKinds := by
  have hobject : i.object.kind = i.kind := by
    rw [Object.kind, i.text?_isa, Option.getD_some]
  rw [← hobject]
  exact h.newObject.kind_mem

end Insertion

namespace ObjectTable

/-- How many objects have a string under a key. -/
def countText (table : ObjectTable) (key text : String) : Nat :=
  table.countP fun entry => entry.2.dictionary?.bind (Object.text? · key) = some text

variable {table : ObjectTable} {id : ObjectId}

lemma countText_insert_new (hid : Dict.contains table id = false) (object : Object)
    (key text : String) :
    countText (Dict.insert table id (.dictionary object)) key text =
      countText table key text + if object.text? key = some text then 1 else 0 := by
  obtain ⟨before, after, hsplit, hinsert⟩ :=
    Dict.insert_of_lookup_none (Dict.lookup_of_contains_eq_false hid) (Value.dictionary object)
  rw [countText, countText, hinsert, hsplit]
  by_cases htext : object.text? key = some text
  · simp [Value.dictionary?, htext, Nat.add_assoc]
  · simp [Value.dictionary?, htext]

lemma countText_insert_old {object object' : Object} (hsorted : Dict.Sorted table)
    (hobject : table.object? id = some object) {key : String}
    (htext : object'.text? key = object.text? key) (text : String) :
    countText (Dict.insert table id (.dictionary object')) key text = countText table key text := by
  obtain ⟨before, after, hsplit, hinsert⟩ :=
    hsorted.insert_of_lookup_some (object?_eq_some.mp hobject) (Value.dictionary object')
  rw [countText, countText, hinsert, hsplit]
  by_cases hold : object.text? key = some text
  · simp [Value.dictionary?, htext, hold]
  · simp [Value.dictionary?, htext, hold]

end ObjectTable

namespace Project

lemma countText_insert {p : Project} (hsorted : Dict.Sorted p.objects) {i : Insertion}
    {object : Object} (howner : p.object? i.owner = some object) (key text : String) :
    (p.insert i).state.objects.countText key text =
      p.objects.countText key text + if i.object.text? key = some text then 1 else 0 := by
  have hfresh := ObjectId.contains_fresh p.objects i.seed
  have hnew := ObjectTable.countText_insert_new hfresh i.object key text
  rcases insert_cases howner with ⟨items, hitems, hinsert⟩ | ⟨e, hinsert⟩
  · rw [hinsert, ← hnew]
    have hne : i.owner ≠ ObjectId.fresh p.objects i.seed :=
      Dict.ne_of_contains (contains_of_object? howner) hfresh
    have hobject := object?_setObject p (ObjectId.fresh p.objects i.seed) i.owner i.object
    rw [if_neg hne, howner] at hobject
    exact ObjectTable.countText_insert_old (hsorted.insert _ _) hobject
      (Object.text?_insert_array hitems key) text
  · rw [hinsert]
    exact hnew

/-- The objects with a string are those before and those on record. -/
theorem Inserts.countText_eq {p q : Project} {made : List Inserted} (h : Inserts p made q)
    (hp : Dict.Sorted p.objects) (key text : String) :
    q.objects.countText key text = p.objects.countText key text +
      made.countP fun m => m.what.object.text? key = some text := by
  induction h with
  | none => simp
  | next before _ howner ih =>
    rw [countText_insert (before.sorted hp) howner, ih, List.countP_append, List.countP_singleton]
    simp only [decide_eq_true_eq]
    omega

/-- How many objects of a kind are on record. -/
def countMade (made : List Inserted) (kind : String) : Nat :=
  made.countP fun m => m.what.kind = kind

lemma countMade_append (made more : List Inserted) (kind : String) :
    countMade (made ++ more) kind = countMade made kind + countMade more kind :=
  List.countP_append

lemma Inserts.countKind_eq {p q : Project} {made : List Inserted} (h : Inserts p made q)
    (hp : Dict.Sorted p.objects) (kind : String) :
    q.objects.countText "isa" kind = p.objects.countText "isa" kind + countMade made kind := by
  rw [h.countText_eq hp]
  simp only [Insertion.text?_isa, Option.some.injEq]
  rfl

/-! ## Nothing on record -/

lemma objects_eq_of_root_eq {p q : Project} (h : q.root = p.root) : q.objects = p.objects := by
  have hlookup := congrArg (List.lookup "objects") h
  simpa [root, Dict.lookup_insert] using hlookup

lemma Inserts.eq_of_nil {p q : Project} (h : Inserts p [] q) : q = p := by
  generalize hmade : ([] : List Inserted) = made at h
  cases h with
  | none => rfl
  | next before hproper howner => simp at hmade

/-- The project is what it was if and only if nothing is on record. -/
lemma Inserts.root_eq_iff {p q : Project} {made : List Inserted} (h : Inserts p made q) :
    q.root = p.root ↔ made = [] := by
  constructor
  · intro hroot
    refine List.eq_nil_iff_forall_not_mem.mpr ?_
    intro m hm
    have hafter := (h.contains_iff m.id).mpr (.inr (List.mem_map_of_mem hm))
    rw [objects_eq_of_root_eq hroot, h.nodup.2 m hm] at hafter
    cases hafter
  · rintro rfl
    rw [h.eq_of_nil]

end Project

end XcodeProject
