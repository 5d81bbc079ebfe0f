import Mathlib
import XcodeProject.Proofs.Project.Extension

/-!
# The record of what was added

Additions say that a project has grown; this module keeps the record of how.  An `Insertion` is one
of the four things that edits add: a group, a file reference, a phase or a build file, together with
the object that is to list it.  Everything else about it follows: the list, the object that is made
and the seed of its id.  `Project.insert` does it, and every edit is made of such steps
(`newGroup_eq`, `newFile_eq`, `ensurePhase_eq`, `addBuildFile_eq`).

`Inserts p made q` says that the insertions in `made`, one after the other, lead from `p` to `q`.
The record has the id that each new object got, and whether its owner lists it: the owner is changed
after the object has gone into the table, and that may be refused.

So what is true of each insertion that an edit makes is true of whatever is asked of a project
(`Spans`, `Spans.covers`).  In particular some insertions lead to the project as it is afterwards
(`Develops`), and the record has exactly the new ids, each of them once (`Inserts.contains_iff`,
`Inserts.nodup`).
-/

namespace XcodeProject

open PropertyList (Value)

/-! ## Insertions -/

/-- A new object and the object that lists it. -/
inductive Insertion where
  /-- A group in a group. -/
  | group (parent : ObjectId) (name path : String)
  /-- A file reference in a group. -/
  | file (parent : ObjectId) (path : String)
  /-- A phase of a target. -/
  | phase (target : ObjectId) (kind : String)
  /-- A build file in a phase. -/
  | buildFile (phase file : ObjectId)
deriving DecidableEq, Repr

namespace Insertion

/-- The object that lists the new one. -/
def owner : Insertion → ObjectId
  | .group parent _ _ => parent
  | .file parent _ => parent
  | .phase target _ => target
  | .buildFile holder _ => holder

/-- The key of the list. -/
def key : Insertion → String
  | .group _ _ _ => "children"
  | .file _ _ => "children"
  | .phase _ _ => "buildPhases"
  | .buildFile _ _ => "files"

/-- The new object. -/
def object : Insertion → Object
  | .group _ name path => Project.groupObject name path
  | .file _ path => Project.fileObject path
  | .phase _ kind => Project.phaseObject kind
  | .buildFile _ built => Project.buildFileObject built

/-- What the id of the new object is derived from. -/
def seed : Insertion → List String
  | .group parent _ path => [Kind.group, parent, path]
  | .file parent path => [Kind.fileReference, parent, path]
  | .phase target kind => [kind, target]
  | .buildFile holder built => [Kind.buildFile, holder, built]

/-- A phase is one that files go to. -/
def Proper : Insertion → Prop
  | .phase _ kind => ∃ path, kind = Project.phaseKind path
  | _ => True

lemma Proper.newObject {i : Insertion} (h : i.Proper) : Project.NewObject i.object := by
  cases i with
  | group parent name path => exact .group name path
  | file parent path => exact .file path
  | phase target kind =>
    obtain ⟨path, rfl⟩ := h
    exact .phase path
  | buildFile phase file => exact .buildFile file

lemma key_mem_listFields (i : Insertion) : i.key ∈ listFields := by
  cases i <;> simp [key, listFields]

end Insertion

namespace Project

/-- Puts the new object of an insertion under a fresh id and the id into the list of its owner. -/
def insert (p : Project) (i : Insertion) : Attempt Project ObjectId :=
  p.addOwned i.owner i.key (ObjectId.fresh p.objects i.seed) i.object

/-- The object goes into the table in any case.  Then its owner lists it, or else what stands where
the list should be is not a list. -/
lemma insert_cases {p : Project} {i : Insertion} {object : Object}
    (howner : p.object? i.owner = some object) :
    (∃ items, (object.lookup i.key).getD (.array []) = .array items ∧
      p.insert i = ⟨.ok (ObjectId.fresh p.objects i.seed),
        (p.setObject (ObjectId.fresh p.objects i.seed) (.dictionary i.object)).setObject i.owner
          (.dictionary (Dict.insert object i.key
            (.array (items ++ [.string (ObjectId.fresh p.objects i.seed)]))))⟩) ∨
    ∃ e, p.insert i =
      ⟨.error e, p.setObject (ObjectId.fresh p.objects i.seed) (.dictionary i.object)⟩ := by
  have hfresh := ObjectId.contains_fresh p.objects i.seed
  unfold insert addOwned
  generalize ObjectId.fresh p.objects i.seed = id at hfresh ⊢
  have hne : i.owner ≠ id := Dict.ne_of_contains (contains_of_object? howner) hfresh
  simp only
  split
  · next appended happend =>
    obtain ⟨found, items, hfound, hitems, rfl⟩ := appendId_eq_ok happend
    rw [object?_setObject, if_neg hne, howner] at hfound
    cases hfound
    exact .inl ⟨items, hitems, rfl⟩
  · next e happend => exact .inr ⟨e, rfl⟩

/-- An insertion is not refused if its owner has a list for it, or nothing in its place. -/
lemma exists_insert_eq_ok {p : Project} {i : Insertion} {object : Object} {items : List Value}
    (howner : p.object? i.owner = some object)
    (hitems : (object.lookup i.key).getD (.array []) = .array items) :
    ∃ id q, p.insert i = ⟨.ok id, q⟩ := by
  have hne : i.owner ≠ ObjectId.fresh p.objects i.seed :=
    Dict.ne_of_contains (contains_of_object? howner) (ObjectId.contains_fresh _ _)
  unfold insert addOwned appendId
  simp only [object?_setObject, if_neg hne, howner, hitems]
  exact ⟨_, _, rfl⟩

/-! ## What an insertion changes -/

/-- The strings of the object under an id, by key. -/
def texts? (p : Project) (id : ObjectId) : Option (String → Option String) :=
  (p.object? id).map Object.text?

lemma text?_eq_bind (p : Project) (id : ObjectId) (key : String) :
    p.objects.text? id key = (p.texts? id).bind (· key) := by
  show (p.object? id).bind (Object.text? · key) = _
  rw [texts?, Option.bind_map]
  rfl

section Insert

variable {p : Project} {i : Insertion} {object : Object}

lemma contains_insert (howner : p.object? i.owner = some object) (id : ObjectId) :
    Dict.contains (p.insert i).state.objects id = true ↔
      Dict.contains p.objects id = true ∨ id = ObjectId.fresh p.objects i.seed := by
  have hcontains := contains_of_object? howner
  rcases insert_cases howner with ⟨items, -, hinsert⟩ | ⟨e, hinsert⟩
  · rw [hinsert]
    simp only [setObject, Dict.contains_insert, Bool.or_eq_true, beq_iff_eq]
    constructor
    · rintro (rfl | h)
      · exact .inl hcontains
      · exact h.symm
    · exact fun h => .inr h.symm
  · rw [hinsert]
    simp only [setObject, Dict.contains_insert, Bool.or_eq_true, beq_iff_eq]
    exact or_comm

lemma object?_insert_fresh (howner : p.object? i.owner = some object) :
    (p.insert i).state.object? (ObjectId.fresh p.objects i.seed) = some i.object := by
  have hne : ObjectId.fresh p.objects i.seed ≠ i.owner :=
    (Dict.ne_of_contains (contains_of_object? howner) (ObjectId.contains_fresh _ _)).symm
  rcases insert_cases howner with ⟨items, -, hinsert⟩ | ⟨e, hinsert⟩
  · rw [hinsert, object?_setObject, if_neg hne, object?_setObject, if_pos rfl]
  · rw [hinsert, object?_setObject, if_pos rfl]

/-- The strings of the new object are its own, and all others are what they were. -/
lemma texts?_insert (howner : p.object? i.owner = some object) (id : ObjectId) :
    (p.insert i).state.texts? id =
      if id = ObjectId.fresh p.objects i.seed then some i.object.text? else p.texts? id := by
  have hne : i.owner ≠ ObjectId.fresh p.objects i.seed :=
    Dict.ne_of_contains (contains_of_object? howner) (ObjectId.contains_fresh _ _)
  unfold texts?
  rcases insert_cases howner with ⟨items, hitems, hinsert⟩ | ⟨e, hinsert⟩
  · rw [hinsert, object?_setObject, object?_setObject]
    by_cases hid : id = i.owner
    · subst hid
      rw [if_pos rfl, if_neg hne, howner, Option.map_some, Option.map_some]
      exact congrArg some (funext (Object.text?_insert_array hitems))
    · rw [if_neg hid]
      split <;> rfl
  · rw [hinsert, object?_setObject]
    split <;> rfl

/-- The new id is at the end of the list of its owner, if that could be changed, and all other lists
are what they were. -/
lemma ids_insert (hproper : i.Proper) (howner : p.object? i.owner = some object) (id : ObjectId)
    (key : String) :
    (p.insert i).state.objects.ids id key = p.objects.ids id key ++
      if (p.insert i).result.isOk ∧ id = i.owner ∧ key = i.key
      then [ObjectId.fresh p.objects i.seed] else [] := by
  have hfresh := ObjectId.contains_fresh p.objects i.seed
  have hne : i.owner ≠ ObjectId.fresh p.objects i.seed :=
    Dict.ne_of_contains (contains_of_object? howner) hfresh
  have hnone := object?_of_contains_eq_false hfresh
  have hempty := hproper.newObject.ids_eq_nil key
  show (((p.insert i).state.object? id).map (Object.ids · key)).getD [] =
    ((p.object? id).map (Object.ids · key)).getD [] ++ _
  rcases insert_cases howner with ⟨items, hitems, hinsert⟩ | ⟨e, hinsert⟩
  · rw [hinsert, object?_setObject, object?_setObject]
    by_cases hid : id = i.owner
    · subst hid
      rw [if_pos rfl, howner]
      by_cases hkey : key = i.key
      · subst hkey
        simp [Object.ids_insert_append hitems, Except.isOk, Except.toBool]
      · simp [Object.ids_insert_of_ne _ hkey, hkey]
    · rw [if_neg hid]
      by_cases hnew : id = ObjectId.fresh p.objects i.seed
      · subst hnew
        simp [hnone, hempty, hid]
      · simp [hnew, hid]
  · rw [hinsert, object?_setObject]
    by_cases hnew : id = ObjectId.fresh p.objects i.seed
    · subst hnew
      simp [hnone, hempty, Except.isOk, Except.toBool]
    · simp [hnew, Except.isOk, Except.toBool]

end Insert

/-! ## Edits as insertions -/

section Edits

variable (p : Project)

lemma newGroup_eq (parent : ObjectId) (name path : String) :
    p.newGroup parent name path =
      match p.group parent with
      | .error e => ⟨.error e, p⟩
      | .ok _ => p.insert (.group parent name path) :=
  rfl

lemma newFile_eq (parent : ObjectId) (path : String) :
    p.newFile parent path =
      match p.group parent with
      | .error e => ⟨.error e, p⟩
      | .ok _ => p.insert (.file parent path) :=
  rfl

lemma ensurePhase_eq (target : ObjectId) (kind : String) :
    p.ensurePhase target kind =
      match p.object? target with
      | none => ⟨.error ⟨target, .noSuchTarget⟩, p⟩
      | some object =>
        match (object.ids "buildPhases").find? fun phase => p.objects.kind? phase = some kind with
        | some phase => ⟨.ok ⟨phase, kind, false⟩, p⟩
        | none => (p.insert (.phase target kind)).andThen fun phase p =>
            ⟨.ok ⟨phase, kind, true⟩, p⟩ :=
  rfl

lemma addBuildFile_eq (phase : Phase) (file : ObjectId) :
    p.addBuildFile phase file =
      if p.phaseHolds phase.id file then ⟨.ok .present, p⟩
      else (p.insert (.buildFile phase.id file)).andThen fun buildFile p =>
        ⟨.ok (.added buildFile phase), p⟩ :=
  rfl

end Edits

/-! ## Records -/

/-- An insertion that was made. -/
structure Inserted where
  /-- What was inserted. -/
  what : Insertion
  /-- The id of the new object. -/
  id : ObjectId
  /-- Its owner lists it. -/
  linked : Bool
deriving DecidableEq, Repr

/-- Insertions that lead from a project to another one, in order. -/
inductive Inserts (p : Project) : List Inserted → Project → Prop
  /-- Nothing was inserted. -/
  | none : Inserts p [] p
  /-- One more insertion, with an owner that is there. -/
  | next {made : List Inserted} {q : Project} {i : Insertion} {object : Object}
      (before : Inserts p made q) (hproper : i.Proper)
      (howner : q.object? i.owner = some object) :
      Inserts p (made ++ [⟨i, ObjectId.fresh q.objects i.seed, (q.insert i).result.isOk⟩])
        (q.insert i).state

/-- The ids that were put into a list. -/
def listedBy (made : List Inserted) (owner : ObjectId) (key : String) : List ObjectId :=
  (made.filter fun m => m.linked ∧ m.what.owner = owner ∧ m.what.key = key).map Inserted.id

lemma listedBy_append (made more : List Inserted) (owner : ObjectId) (key : String) :
    listedBy (made ++ more) owner key = listedBy made owner key ++ listedBy more owner key := by
  rw [listedBy, List.filter_append, List.map_append]
  rfl

namespace Inserts

variable {p q q' : Project} {made more : List Inserted}

lemma trans (h : Inserts p made q) (h' : Inserts q more q') : Inserts p (made ++ more) q' := by
  induction h' with
  | none => rwa [List.append_nil]
  | next _ hproper howner ih =>
    rw [← List.append_assoc]
    exact .next ih hproper howner

lemma additions (h : Inserts p made q) : Additions (fun _ key => key ∈ listFields) p q := by
  induction h with
  | none => exact .refl p
  | @next _ q i object _ hproper howner ih =>
    refine ih.trans (.single ?_)
    exact .mk howner i.key_mem_listFields (ObjectId.contains_fresh _ _) hproper.newObject

lemma edits (h : Inserts p made q) : Edits listFields p q :=
  h.additions.edits fun _ _ hkey => hkey

lemma proper (h : Inserts p made q) {m : Inserted} (hm : m ∈ made) : m.what.Proper := by
  induction h with
  | none => cases hm
  | next _ hproper _ ih =>
    rcases List.mem_append.mp hm with hm | hm
    · exact ih hm
    · obtain rfl := List.mem_singleton.mp hm
      exact hproper

lemma sorted (h : Inserts p made q) (hp : Dict.Sorted p.objects) : Dict.Sorted q.objects := by
  induction h with
  | none => exact hp
  | next _ _ howner ih =>
    rcases insert_cases howner with ⟨items, -, hinsert⟩ | ⟨e, hinsert⟩
    · rw [hinsert]
      exact (ih.insert _ _).insert _ _
    · rw [hinsert]
      exact ih.insert _ _

/-- The ids in the table afterwards are those before and those in the record. -/
lemma contains_iff (h : Inserts p made q) (id : ObjectId) :
    Dict.contains q.objects id = true ↔
      Dict.contains p.objects id = true ∨ id ∈ made.map Inserted.id := by
  induction h with
  | none => simp
  | next _ hproper howner ih =>
    rw [contains_insert howner, ih, List.map_append, List.mem_append, or_assoc]
    simp

lemma contains_eq_false (h : Inserts p made q) {id : ObjectId}
    (hid : Dict.contains q.objects id = false) : Dict.contains p.objects id = false := by
  refine Bool.eq_false_iff.mpr fun hold => ?_
  rw [(h.contains_iff id).mpr (.inl hold)] at hid
  cases hid

/-- The ids in the record are new ones, and no two of them are the same. -/
lemma nodup (h : Inserts p made q) :
    (made.map Inserted.id).Nodup ∧ ∀ m ∈ made, Dict.contains p.objects m.id = false := by
  induction h with
  | none => simp
  | @next made q i object before hproper howner ih =>
    have hfresh := ObjectId.contains_fresh q.objects i.seed
    have hnew : ¬ (Dict.contains p.objects (ObjectId.fresh q.objects i.seed) = true ∨
        ObjectId.fresh q.objects i.seed ∈ made.map Inserted.id) := by
      rw [← before.contains_iff, hfresh]
      exact Bool.false_ne_true
    obtain ⟨hold, hmade⟩ := not_or.mp hnew
    refine ⟨?_, ?_⟩
    · rw [List.map_append, List.nodup_append]
      refine ⟨ih.1, List.nodup_singleton _, ?_⟩
      intro id hid other hother heq
      obtain rfl : other = ObjectId.fresh q.objects i.seed := by simpa using hother
      exact hmade (heq ▸ hid)
    · intro m hm
      rcases List.mem_append.mp hm with hm | hm
      · exact ih.2 m hm
      · obtain rfl := List.mem_singleton.mp hm
        exact Bool.eq_false_iff.mpr hold

/-- The new ids are those in the record. -/
lemma isNew_iff (h : Inserts p made q) (id : ObjectId) :
    p.objects.IsNew q.objects id ↔ id ∈ made.map Inserted.id := by
  constructor
  · rintro ⟨hbefore, hafter⟩
    refine ((h.contains_iff id).mp hafter).resolve_left ?_
    rw [hbefore]
    exact Bool.false_ne_true
  · intro hid
    obtain ⟨m, hm, rfl⟩ := List.mem_map.mp hid
    exact ⟨h.nodup.2 m hm, (h.contains_iff m.id).mpr (.inr hid)⟩

/-- The strings of a new object are its own. -/
lemma texts?_of_mem (h : Inserts p made q) {m : Inserted} (hm : m ∈ made) :
    q.texts? m.id = some m.what.object.text? := by
  induction h with
  | none => cases hm
  | @next made q i object before hproper howner ih =>
    rw [texts?_insert howner]
    rcases List.mem_append.mp hm with hm | hm
    · have hold := (before.contains_iff m.id).mpr (.inr (List.mem_map_of_mem hm))
      rw [if_neg (Dict.ne_of_contains hold (ObjectId.contains_fresh _ _)), ih hm]
    · obtain rfl := List.mem_singleton.mp hm
      rw [if_pos rfl]

/-- The strings of other objects are what they were. -/
lemma texts?_of_notMem (h : Inserts p made q) {id : ObjectId} (hid : id ∉ made.map Inserted.id) :
    q.texts? id = p.texts? id := by
  induction h with
  | none => rfl
  | next _ _ howner ih =>
    rw [List.map_append, List.mem_append, not_or] at hid
    rw [texts?_insert howner, if_neg (by simpa using hid.2), ih hid.1]

lemma text?_of_mem (h : Inserts p made q) {m : Inserted} (hm : m ∈ made) (key : String) :
    q.objects.text? m.id key = m.what.object.text? key := by
  rw [text?_eq_bind, h.texts?_of_mem hm, Option.bind_some]

lemma text?_of_notMem (h : Inserts p made q) {id : ObjectId} (hid : id ∉ made.map Inserted.id)
    (key : String) : q.objects.text? id key = p.objects.text? id key := by
  rw [text?_eq_bind, text?_eq_bind, h.texts?_of_notMem hid]

lemma text?_of_contains (h : Inserts p made q) {id : ObjectId}
    (hid : Dict.contains p.objects id = true) (key : String) :
    q.objects.text? id key = p.objects.text? id key := by
  refine h.text?_of_notMem ?_ key
  intro hmade
  obtain ⟨m, hm, rfl⟩ := List.mem_map.mp hmade
  rw [h.nodup.2 m hm] at hid
  cases hid

/-- The lists have the ids that were linked to them at their end. -/
lemma ids_eq (h : Inserts p made q) (id : ObjectId) (key : String) :
    q.objects.ids id key = p.objects.ids id key ++ listedBy made id key := by
  induction h with
  | none => simp [listedBy]
  | @next made q i object _ hproper howner ih =>
    rw [ids_insert hproper howner, ih, List.append_assoc, listedBy_append]
    congr 2
    by_cases hlist : (q.insert i).result.isOk ∧ id = i.owner ∧ key = i.key
    · rw [if_pos hlist]
      simp [listedBy, hlist]
    · rw [if_neg hlist]
      rw [eq_comm (a := id), eq_comm (a := key)] at hlist
      simp [listedBy, hlist]

end Inserts

lemma fresh_of_insert_eq_ok {p q : Project} {i : Insertion} {object : Object} {id : ObjectId}
    (howner : p.object? i.owner = some object) (h : p.insert i = ⟨.ok id, q⟩) :
    ObjectId.fresh p.objects i.seed = id := by
  rcases insert_cases howner with ⟨items, -, hinsert⟩ | ⟨e, hinsert⟩
  · exact Except.ok.inj (congrArg Attempt.result (hinsert.symm.trans h))
  · cases congrArg Attempt.result (hinsert.symm.trans h)

/-- An insertion that was not refused, as a record. -/
lemma inserts_of_insert_eq_ok {p q : Project} {i : Insertion} {object : Object} {id : ObjectId}
    (hproper : i.Proper) (howner : p.object? i.owner = some object)
    (h : p.insert i = ⟨.ok id, q⟩) : Inserts p [⟨i, id, true⟩] q := by
  have hnext := Inserts.next .none hproper howner
  rw [h, fresh_of_insert_eq_ok howner h] at hnext
  exact hnext

/-! ## Everything is made of insertions -/

/-- What an edit makes sure of before it inserts: a build file is for an object of the project, and
the phase has no entry for it. -/
def Admits (p : Project) : Insertion → Prop
  | .buildFile phase file => Dict.contains p.objects file = true ∧ p.phaseHolds phase file = false
  | _ => True

/-- A relation between projects that holds of every insertion that an edit makes. -/
structure Spans (R : Project → Project → Prop) : Prop where
  /-- Nothing may be inserted. -/
  refl : ∀ p, R p p
  /-- One insertion, whether its owner can list the new object or not. -/
  insert : ∀ {p : Project} {i : Insertion} {object : Object}, i.Proper →
    p.object? i.owner = some object → p.Admits i → R p (p.insert i).state

namespace Spans

variable {R : Project → Project → Prop}

lemma newGroup (h : Spans R) (p : Project) (parent : ObjectId) (name path : String) :
    R p (p.newGroup parent name path).state := by
  rw [newGroup_eq]
  split
  · exact h.refl p
  · next object hgroup => exact h.insert trivial (group_eq_ok.mp hgroup).1 trivial

lemma newFile (h : Spans R) (p : Project) (parent : ObjectId) (path : String) :
    R p (p.newFile parent path).state := by
  rw [newFile_eq]
  split
  · exact h.refl p
  · next object hgroup => exact h.insert trivial (group_eq_ok.mp hgroup).1 trivial

variable [IsTrans Project R]

lemma ensurePhase (h : Spans R) (p : Project) (target : ObjectId) (path : String) :
    R p (p.ensurePhase target (phaseKind path)).state := by
  rw [ensurePhase_eq]
  split
  · exact h.refl p
  · next object hobject =>
    split
    · exact h.refl p
    · exact Attempt.state_andThen R (h.insert ⟨path, rfl⟩ hobject trivial) fun _ q _ => h.refl q

lemma addBuildFile (h : Spans R) {p : Project} {phase : Phase} {kind : String} {file : ObjectId}
    (hphase : p.objects.kind? phase.id = some kind) (hfile : Dict.contains p.objects file = true) :
    R p (p.addBuildFile phase file).state := by
  rw [addBuildFile_eq]
  split
  · exact h.refl p
  · next hholds =>
    obtain ⟨object, hobject, -⟩ := object?_of_kind? hphase
    have hadmits : p.Admits (.buildFile phase.id file) := ⟨hfile, Bool.eq_false_iff.mpr hholds⟩
    exact Attempt.state_andThen R (h.insert trivial hobject hadmits) fun _ q _ => h.refl q

end Spans

/-- Some insertions lead from a project to another one. -/
def Develops (p q : Project) : Prop :=
  ∃ made, p.Inserts made q

instance : IsTrans Project Develops := by
  refine ⟨?_⟩
  rintro p q q' ⟨made, h⟩ ⟨more, h'⟩
  exact ⟨made ++ more, h.trans h'⟩

lemma Develops.refl (p : Project) : Develops p p :=
  ⟨[], .none⟩

lemma spans_develops : Spans Develops where
  refl := .refl
  insert hproper howner _ := ⟨_, .next .none hproper howner⟩

/-- What was in the project is still there when a phase has been made. -/
lemma contains_of_ensurePhase {p q : Project} {target : ObjectId} {path : String} {phase : Phase}
    (hphase : p.ensurePhase target (phaseKind path) = ⟨.ok phase, q⟩) {id : ObjectId}
    (hid : Dict.contains p.objects id = true) : Dict.contains q.objects id = true := by
  obtain ⟨made, hmade⟩ := spans_develops.ensurePhase p target path
  rw [hphase] at hmade
  exact (hmade.contains_iff id).mpr (.inl hid)

lemma object?_of_fileReference? {p : Project} {id : ObjectId} {reference : Object}
    (h : p.fileReference? id = some reference) : p.object? id = some reference :=
  (Option.filter_eq_some_iff.mp h).1

theorem Spans.attach {R : Project → Project → Prop} [IsTrans Project R] (h : Spans R)
    (p : Project) (target : Target) (file : ObjectId) : R p (p.attach target file).state := by
  unfold Project.attach
  split
  · split
    · exact h.refl p
    · next reference hreference =>
      have hfile := contains_of_object? (object?_of_fileReference? hreference)
      refine Attempt.state_andThen R (h.ensurePhase p target.id _) ?_
      intro phase q hphase
      exact h.addBuildFile (kind?_ensurePhase hphase) (contains_of_ensurePhase hphase hfile)
  · exact h.refl p

lemma Spans.covers {R : Project → Project → Prop} [IsTrans Project R] (h : Spans R)
    (targets : List Target) : Registrar.Covers targets R where
  refl := h.refl
  newGroup p parent directory := h.newGroup p parent directory directory
  newFile := h.newFile
  attach p target _ file := h.attach p target file

lemma develops_register (p : Project) (paths : List String) :
    Develops p (p.register paths).state :=
  ((spans_develops.covers p.targets).registerAll paths (.ofProject p) rfl).2

lemma develops_registerEach (p : Project) (paths : List String) :
    Develops p (Registrar.registerEach paths (.ofProject p)).2.project :=
  ((spans_develops.covers p.targets).registerEach paths (.ofProject p) rfl).2

end Project

end XcodeProject
