import Mathlib
import XcodeProject.Proofs.Project.EditRecords
import XcodeProject.Proofs.Registration.Idempotence

/-!
# What a refused edit leaves behind

An edit puts a new object into the table before it changes the list of the owner.  If the owner has
something else where the list should be, the edit is refused and the object stays, listed by nobody
(`Stranded`).  That is all a refused edit can leave behind.

For attachments this is not plain, since they may insert a phase and then a build file.  But a
refusal of the first insertion ends the edit, and the second one is not refused if a phase has just
been made for it, because a new phase has an empty list of files (`exists_addBuildFile_eq_ok`).
-/

namespace XcodeProject

open PropertyList (Value)

/-- Everything in a list of the object under an id, be it an id or not. -/
def ObjectTable.items (table : ObjectTable) (id : ObjectId) (key : String) : List Value :=
  (((table.object? id).bind (List.lookup key)).bind Value.array?).getD []

namespace Project

variable {p q : Project} {e : EditError}

/-- Nothing has changed, or there is one new object, under an id that was not in use. -/
inductive Stranded (p : Project) : Project → Prop
  /-- The edit was refused before anything was made. -/
  | nothing : Stranded p p
  /-- The edit was refused when the new object was in the table. -/
  | object {id : ObjectId} {object : Object} (hfresh : Dict.contains p.objects id = false)
      (hnew : NewObject object) : Stranded p (p.setObject id (.dictionary object))

namespace Stranded

lemma lookup_root (h : Stranded p q) {key : String} (hkey : key ≠ "objects") :
    q.root.lookup key = p.root.lookup key := by
  have hsettings : q.settings = p.settings := by cases h <;> rfl
  rw [root, root, Dict.lookup_insert, Dict.lookup_insert, if_neg hkey, if_neg hkey, hsettings]

lemma lookup_of_lookup (h : Stranded p q) {id : ObjectId} {value : Value}
    (hvalue : p.objects.lookup id = some value) : q.objects.lookup id = some value := by
  cases h with
  | nothing => exact hvalue
  | @object fresh made hfresh hnew =>
    have hne : id ≠ fresh := Dict.ne_of_contains (Dict.contains_of_lookup hvalue) hfresh
    rw [setObject, Dict.lookup_insert, if_neg hne, hvalue]

/-- No list has got anything, and the lists of the new object are empty. -/
lemma items_eq (h : Stranded p q) (id : ObjectId) (key : String) :
    q.objects.items id key = p.objects.items id key := by
  cases h with
  | nothing => rfl
  | @object fresh made hfresh hnew =>
    show ((((p.setObject fresh (.dictionary made)).object? id).bind (List.lookup key)).bind
      Value.array?).getD [] = (((p.object? id).bind (List.lookup key)).bind Value.array?).getD []
    rw [object?_setObject]
    by_cases hid : id = fresh
    · rw [if_pos hid, hid, object?_of_contains_eq_false hfresh, Option.bind_some]
      cases hlookup : made.lookup key with
      | none => rfl
      | some value =>
        cases value with
        | string text => rfl
        | dictionary entries => rfl
        | array items =>
          have hitems : (made.lookup key).getD (.array []) = .array items := by
            rw [hlookup, Option.getD_some]
          rw [hnew.items_eq_nil hitems]
          rfl
    · rw [if_neg hid]

/-- The table is what it was or has one entry more. -/
lemma eq_or_one_more (h : Stranded p q) :
    q = p ∨ ∃ id object, Dict.contains p.objects id = false ∧
      q.objects.lookup id = some (.dictionary object) ∧ q.objectCount = p.objectCount + 1 := by
  cases h with
  | nothing => exact .inl rfl
  | @object fresh made hfresh hnew =>
    refine .inr ⟨fresh, made, hfresh, ?_, ?_⟩
    · rw [setObject, Dict.lookup_insert, if_pos rfl]
    · obtain ⟨before, after, hsplit, hinsert⟩ := Dict.insert_of_lookup_none
        (Dict.lookup_of_contains_eq_false hfresh) (Value.dictionary made)
      show (Dict.insert p.objects fresh (Value.dictionary made)).length = p.objects.length + 1
      rw [hinsert, hsplit, List.length_append, List.length_append, List.length_cons, Nat.add_assoc]

end Stranded

/-! ## Insertions that are refused -/

lemma stranded_insert {i : Insertion} {object : Object} (hproper : i.Proper)
    (howner : p.object? i.owner = some object) (h : p.insert i = ⟨.error e, q⟩) :
    Stranded p q := by
  rcases insert_cases howner with ⟨items, -, hinsert⟩ | ⟨e', hinsert⟩
  · cases congrArg Attempt.result (hinsert.symm.trans h)
  · rw [hinsert] at h
    cases h
    exact .object (ObjectId.contains_fresh _ _) hproper.newObject

lemma stranded_newGroup {parent : ObjectId} {name path : String}
    (h : p.newGroup parent name path = ⟨.error e, q⟩) : Stranded p q := by
  rw [newGroup_eq] at h
  split at h
  · cases h
    exact .nothing
  · next object hgroup =>
    exact stranded_insert (i := .group parent name path) trivial (group_eq_ok.mp hgroup).1 h

lemma stranded_newFile {parent : ObjectId} {path : String}
    (h : p.newFile parent path = ⟨.error e, q⟩) : Stranded p q := by
  rw [newFile_eq] at h
  split at h
  · cases h
    exact .nothing
  · next object hgroup =>
    exact stranded_insert (i := .file parent path) trivial (group_eq_ok.mp hgroup).1 h

/-! ## Attachments that are refused -/

section Attach

variable {target : ObjectId} {path : String} {phase : Phase}

lemma stranded_ensurePhase (h : p.ensurePhase target (phaseKind path) = ⟨.error e, q⟩) :
    Stranded p q := by
  rw [ensurePhase_eq] at h
  split at h
  · cases h
    exact .nothing
  next object hobject =>
  split at h
  · cases h
  · generalize hinsert : p.insert (.phase target (phaseKind path)) = attempt at h
    obtain ⟨result, q'⟩ := attempt
    cases result with
    | ok id => cases h
    | error e' =>
      cases h
      exact stranded_insert (i := .phase target (phaseKind path)) ⟨path, rfl⟩ hobject hinsert

lemma stranded_addBuildFile {kind : String} (hphase : p.objects.kind? phase.id = some kind)
    {file : ObjectId} (h : p.addBuildFile phase file = ⟨.error e, q⟩) : Stranded p q := by
  obtain ⟨object, hobject, -⟩ := object?_of_kind? hphase
  rw [addBuildFile_eq] at h
  split at h
  · cases h
  · generalize hinsert : p.insert (.buildFile phase.id file) = attempt at h
    obtain ⟨result, q'⟩ := attempt
    cases result with
    | ok id => cases h
    | error e' =>
      cases h
      exact stranded_insert (i := .buildFile phase.id file) trivial hobject hinsert

/-- A phase that was made for a file is as it was made. -/
lemma object?_of_isNew (h : p.ensurePhase target (phaseKind path) = ⟨.ok phase, q⟩)
    (hnew : phase.isNew = true) : q.object? phase.id = some (phaseObject (phaseKind path)) := by
  rw [ensurePhase_eq] at h
  split at h
  · cases h
  next object hobject =>
  split at h
  · cases h
    cases hnew
  · obtain ⟨id, made, hinsert, hphase⟩ := Attempt.andThen_eq_ok h
    cases hphase
    have howner : p.object? (Insertion.phase target (phaseKind path)).owner = some object := hobject
    have hmade := object?_insert_fresh howner
    rwa [hinsert, fresh_of_insert_eq_ok howner hinsert] at hmade

/-- A phase that was made for a file takes it. -/
lemma exists_addBuildFile_eq_ok (h : p.ensurePhase target (phaseKind path) = ⟨.ok phase, q⟩)
    (hnew : phase.isNew = true) (file : ObjectId) :
    ∃ attachment q', q.addBuildFile phase file = ⟨.ok attachment, q'⟩ := by
  have hfiles : ((phaseObject (phaseKind path)).lookup "files").getD (.array []) = .array [] := rfl
  obtain ⟨id, q', hinsert⟩ := exists_insert_eq_ok (i := .buildFile phase.id file)
    (object?_of_isNew h hnew) hfiles
  rw [addBuildFile_eq, phaseHolds_of_isNew h hnew, hinsert]
  exact ⟨_, _, rfl⟩

lemma stranded_attach {target : Target} {file : ObjectId}
    (h : p.attach target file = ⟨.error e, q⟩) : Stranded p q := by
  unfold attach at h
  split at h
  swap
  · cases h
  split at h
  · cases h
    exact .nothing
  next reference hreference =>
  generalize hphase : p.ensurePhase target.id
    (phaseKind ((reference.text? "path").getD "")) = attempt at h
  obtain ⟨result, middle⟩ := attempt
  cases result with
  | error e' =>
    cases h
    exact stranded_ensurePhase hphase
  | ok phase =>
    rw [Attempt.andThen_ok] at h
    cases hnew : phase.isNew with
    | true =>
      obtain ⟨attachment, q', hadd⟩ := exists_addBuildFile_eq_ok hphase hnew file
      cases hadd.symm.trans h
    | false =>
      -- The phase was there, so nothing has been made before the build file.
      have hinserts := inserts_ensurePhase hphase
      rw [Phase.record, hnew, if_neg Bool.false_ne_true] at hinserts
      obtain rfl := hinserts.eq_of_nil
      exact stranded_addBuildFile (kind?_ensurePhase hphase) h

end Attach

/-! ## Any edit -/

/-- An edit that was refused, with the project afterwards. -/
inductive Refused (p : Project) (e : EditError) (q : Project) : Prop
  /-- A group was to be added to a group. -/
  | newGroup {parent : ObjectId} {name path : String}
      (h : p.newGroup parent name path = ⟨.error e, q⟩)
  /-- A file reference was to be added to a group. -/
  | newFile {parent : ObjectId} {path : String} (h : p.newFile parent path = ⟨.error e, q⟩)
  /-- A target was to build a file. -/
  | attach {target : Target} {file : ObjectId} (h : p.attach target file = ⟨.error e, q⟩)

lemma Refused.stranded (h : p.Refused e q) : Stranded p q := by
  cases h with
  | newGroup h => exact stranded_newGroup h
  | newFile h => exact stranded_newFile h
  | attach h => exact stranded_attach h

/-- After a refused edit the root is what it was outside the object table, and so is everything that
was in the table.  The table itself is what it was or has one more object, under an id that was not
in use.  No list has got anything. -/
theorem refused_edit_strands_at_most_one_object (h : p.Refused e q) :
    (∀ key, key ≠ "objects" → q.root.lookup key = p.root.lookup key) ∧
    (∀ id value, p.objects.lookup id = some value → q.objects.lookup id = some value) ∧
    (q = p ∨ ∃ id object, Dict.contains p.objects id = false ∧
      q.objects.lookup id = some (.dictionary object) ∧ q.objectCount = p.objectCount + 1) ∧
    ∀ id, ∀ key ∈ ["children", "files", "buildPhases"],
      q.objects.items id key = p.objects.items id key := by
  have hstranded := h.stranded
  refine ⟨?_, ?_, hstranded.eq_or_one_more, ?_⟩
  · intro key hkey
    exact hstranded.lookup_root hkey
  · intro id value hvalue
    exact hstranded.lookup_of_lookup hvalue
  · intro id key _
    exact hstranded.items_eq id key

/-- A target with a phase whose files are not in a list. -/
def misshapenProject : Project :=
  let entries := [("PHASE", Value.dictionary [("files", .string "FILE"),
      ("isa", .string Kind.sourcesPhase)]),
    ("TARGET", .dictionary [("buildPhases", .array [.string "PHASE"]),
      ("isa", .string Kind.nativeTarget)])]
  entries.foldl (fun p entry => p.setObject entry.1 entry.2) sampleProject

/-- The phase is found and the build file is made, but the phase cannot list it. -/
theorem refused_edit_strands_at_most_one_object_misshapen :
    ∃ e q, misshapenProject.attach ⟨"TARGET", "App", Kind.nativeTarget⟩ "FILE" = ⟨.error e, q⟩ ∧
      q ≠ misshapenProject ∧ q.objectCount = misshapenProject.objectCount + 1 ∧
      q.objects.items "TARGET" "buildPhases" =
        misshapenProject.objects.items "TARGET" "buildPhases" := by
  have hresult : (misshapenProject.attach ⟨"TARGET", "App", Kind.nativeTarget⟩ "FILE").result =
      .error ⟨"PHASE", .notArray "files"⟩ := by decide +kernel
  have hcount : (misshapenProject.attach ⟨"TARGET", "App", Kind.nativeTarget⟩
      "FILE").state.objectCount ≠ misshapenProject.objectCount := by decide +kernel
  generalize hattach : misshapenProject.attach ⟨"TARGET", "App", Kind.nativeTarget⟩ "FILE" = attempt
    at hresult hcount
  obtain ⟨result, q⟩ := attempt
  cases hresult
  obtain ⟨-, -, htable, hlists⟩ := refused_edit_strands_at_most_one_object (.attach hattach)
  have hchanged : q ≠ misshapenProject := fun hsame => hcount (congrArg objectCount hsame)
  obtain ⟨id, object, -, -, hone⟩ := htable.resolve_left hchanged
  exact ⟨_, q, rfl, hchanged, hone, hlists "TARGET" "buildPhases" (by decide)⟩

end Project

end XcodeProject
