import Mathlib
import XcodeProject.Proofs.SortedDict
import XcodeProject.Registration.Registrar

/-!
# How a project grows

Whatever an edit is asked to do, and whether it is refused or not, it changes the object table in
two ways only (`Change`): a new object of one of four shapes goes under an id that is not in use, or
the id of an object goes to the end of a list of some object.  A run of changes is `Edits`.

Everything that holds after any edits follows from what one change does.  A change leaves the parts
of the project other than the table alone (`Change.frame`).  The objects that were there stay, with
the same strings and with the same lists but for the one that grew (`Change.exists_object?`), and an
object that was not there is a new one (`Change.old_or_new`).
-/

namespace XcodeProject

open PropertyList (Value)

/-! ## Attempts -/

attribute [ext] Attempt

namespace Attempt

variable {State α β : Type}

@[simp] lemma andThen_ok (made : α) (s : State) (next : α → State → Attempt State β) :
    (Attempt.mk (.ok made) s).andThen next = next made s :=
  rfl

@[simp] lemma andThen_error (e : EditError) (s : State) (next : α → State → Attempt State β) :
    (Attempt.mk (.error e) s).andThen next = ⟨.error e, s⟩ :=
  rfl

lemma andThen_eq_ok {attempt : Attempt State α} {next : α → State → Attempt State β} {made : β}
    {s' : State} (h : attempt.andThen next = ⟨.ok made, s'⟩) :
    ∃ first s, attempt = ⟨.ok first, s⟩ ∧ next first s = ⟨.ok made, s'⟩ := by
  obtain ⟨result, s⟩ := attempt
  cases result with
  | error e => cases h
  | ok first => exact ⟨first, s, rfl, h⟩

lemma result_eq_ok {attempt : Attempt State α} {made : α}
    (h : attempt.result.toOption = some made) : attempt.result = .ok made := by
  obtain ⟨result, s⟩ := attempt
  cases result with
  | error e => cases h
  | ok first => exact congrArg Except.ok (Option.some.inj h)

lemma eq_of_result_eq_ok {attempt : Attempt State α} {made : α} (h : attempt.result = .ok made) :
    attempt = ⟨.ok made, attempt.state⟩ := by
  rw [← h]

/-- A relation from the state before to the state after passes through a sequence of attempts. -/
lemma state_andThen (R : State → State → Prop) [IsTrans State R] {s : State}
    {attempt : Attempt State α} {next : α → State → Attempt State β}
    (hattempt : R s attempt.state)
    (hnext : ∀ made s', attempt = ⟨.ok made, s'⟩ → R s' (next made s').state) :
    R s (attempt.andThen next).state := by
  obtain ⟨result, s'⟩ := attempt
  cases result with
  | error e => exact hattempt
  | ok made => exact trans_of R hattempt (hnext made s' rfl)

end Attempt

/-! ## Fields of an object -/

namespace Object

/-- The objects have the same strings, and the same ids in every list outside `fields`. -/
structure AgreesOutside (fields : List String) (object object' : Object) : Prop where
  /-- The strings are the same. -/
  text : ∀ key, object'.text? key = object.text? key
  /-- The other lists are the same. -/
  ids : ∀ key, key ∉ fields → object'.ids key = object.ids key

lemma AgreesOutside.refl (fields : List String) (object : Object) :
    AgreesOutside fields object object :=
  ⟨fun _ => rfl, fun _ _ => rfl⟩

lemma AgreesOutside.kind_eq {fields : List String} {object object' : Object}
    (h : AgreesOutside fields object object') : object'.kind = object.kind := by
  rw [kind, kind, h.text]

section Insert

variable {object : Object} {key : String} {items more : List Value}

/-- A list that is put in place of a list, or of nothing, changes no string. -/
lemma text?_insert_array (hitems : (object.lookup key).getD (.array []) = .array items)
    (other : String) :
    text? (Dict.insert object key (.array more)) other = text? object other := by
  rw [text?, text?, Dict.lookup_insert]
  by_cases h : other = key
  · subst h
    cases hlookup : object.lookup other with
    | none => simp [Value.string?]
    | some value =>
      rw [hlookup, Option.getD_some] at hitems
      simp [hitems, Value.string?]
  · rw [if_neg h]

lemma ids_insert_of_ne (value : Value) {other : String} (h : other ≠ key) :
    ids (Dict.insert object key value) other = ids object other := by
  rw [ids, ids, Dict.lookup_insert, if_neg h]

/-- A list that an id is put at the end of. -/
lemma ids_insert_append (hitems : (object.lookup key).getD (.array []) = .array items)
    (id : ObjectId) :
    ids (Dict.insert object key (.array (items ++ [.string id]))) key = ids object key ++ [id] := by
  have hids : ids object key = items.filterMap Value.string? := by
    cases hlookup : object.lookup key with
    | none =>
      rw [hlookup, Option.getD_none] at hitems
      cases hitems
      simp [ids, hlookup]
    | some value =>
      rw [hlookup, Option.getD_some] at hitems
      simp [ids, hlookup, hitems, Value.array?]
  rw [hids, ids, Dict.lookup_insert, if_pos rfl]
  simp [Value.array?, Value.string?]

end Insert

end Object

lemma ObjectTable.exists_of_mem_ids {table : ObjectTable} {owner id : ObjectId} {key : String}
    (h : id ∈ table.ids owner key) :
    ∃ object, table.object? owner = some object ∧ id ∈ object.ids key := by
  unfold ids at h
  cases howner : table.object? owner with
  | none => simp [howner] at h
  | some object =>
    rw [howner, Option.map_some, Option.getD_some] at h
    exact ⟨object, rfl, h⟩

namespace Project

/-! ## New objects -/

/-- The objects that edits put into a project. -/
inductive NewObject : Object → Prop
  /-- A group without children. -/
  | group (name path : String) : NewObject (groupObject name path)
  /-- A file reference. -/
  | file (path : String) : NewObject (fileObject path)
  /-- A phase without build files, for headers or for sources. -/
  | phase (path : String) : NewObject (phaseObject (phaseKind path))
  /-- A build file. -/
  | buildFile (file : ObjectId) : NewObject (buildFileObject file)

/-- The kinds of new objects. -/
def newKinds : List String :=
  [Kind.group, Kind.fileReference, Kind.headersPhase, Kind.sourcesPhase, Kind.buildFile]

lemma phaseKind_eq (path : String) :
    phaseKind path = Kind.headersPhase ∨ phaseKind path = Kind.sourcesPhase := by
  unfold phaseKind
  split
  · exact .inl rfl
  · exact .inr rfl

lemma NewObject.kind_mem {object : Object} (h : NewObject object) : object.kind ∈ newKinds := by
  cases h with
  | group name path => exact List.mem_cons_self
  | file path => exact List.mem_cons_of_mem _ List.mem_cons_self
  | phase path =>
    show phaseKind path ∈ newKinds
    rcases phaseKind_eq path with hkind | hkind <;> rw [hkind] <;> decide
  | buildFile file => show Kind.buildFile ∈ newKinds; decide

/-- A new object lists nothing. -/
lemma NewObject.ids_eq_nil {object : Object} (h : NewObject object) (key : String) :
    object.ids key = [] := by
  have hempty : ∀ entry ∈ object, (entry.2.array?).getD [] = [] := by
    cases h <;>
      simp [groupObject, fileObject, phaseObject, buildFileObject, inGroup, Value.array?]
  cases hlookup : object.lookup key with
  | none => simp [Object.ids, hlookup]
  | some value =>
    have hvalue := hempty _ (Dict.mem_of_lookup hlookup)
    simp [Object.ids, hlookup, hvalue]

lemma NewObject.items_eq_nil {object : Object} (h : NewObject object) {key : String}
    {items : List Value} (hitems : (object.lookup key).getD (.array []) = .array items) :
    items = [] := by
  have hempty : ∀ entry ∈ object, ∀ items, entry.2 = .array items → items = [] := by
    cases h <;> simp [groupObject, fileObject, phaseObject, buildFileObject, inGroup]
  cases hlookup : object.lookup key with
  | none =>
    rw [hlookup, Option.getD_none] at hitems
    cases hitems
    rfl
  | some value =>
    rw [hlookup, Option.getD_some] at hitems
    exact hempty _ (Dict.mem_of_lookup hlookup) items hitems

/-! ## Changes of the table -/

lemma object?_setObject (p : Project) (id other : ObjectId) (object : Object) :
    (p.setObject id (.dictionary object)).object? other =
      if other = id then some object else p.object? other := by
  rw [object?, object?, ObjectTable.object?, ObjectTable.object?, setObject, Dict.lookup_insert]
  by_cases h : other = id
  · rw [if_pos h, if_pos h]
    rfl
  · rw [if_neg h, if_neg h]

lemma contains_of_object? {p : Project} {id : ObjectId} {object : Object}
    (h : p.object? id = some object) : Dict.contains p.objects id = true :=
  Dict.contains_of_lookup (ObjectTable.object?_eq_some.mp h)

/-- What is true of every object is true of those under the keys of the table. -/
lemma forall_object?_iff (p : Project) (P : ObjectId → Object → Prop) :
    (∀ id object, p.object? id = some object → P id object) ↔
      ∀ id ∈ Dict.keys p.objects, ∀ object ∈ p.object? id, P id object := by
  constructor
  · intro h id _ object hobject
    exact h id object hobject
  · intro h id object hobject
    have hid := (Dict.contains_eq_true_iff p.objects id).mp (contains_of_object? hobject)
    exact h id hid object hobject

lemma object?_of_contains_eq_false {p : Project} {id : ObjectId}
    (h : Dict.contains p.objects id = false) : p.object? id = none := by
  rw [object?, ObjectTable.object?, Dict.lookup_of_contains_eq_false h]
  rfl

/-- One change of the object table: a new object under an id that is not in use, or the id of an
object at the end of one of the lists named in `fields`. -/
inductive Change (fields : List String) (p : Project) : Project → Prop
  /-- A new object, which nothing lists yet. -/
  | add {id : ObjectId} {object : Object} (hfresh : Dict.contains p.objects id = false)
      (hnew : NewObject object) : Change fields p (p.setObject id (.dictionary object))
  /-- A list grows at its end, or is made with one id in it. -/
  | append {owner id : ObjectId} {object : Object} {key : String} {items : List Value}
      (hkey : key ∈ fields) (howner : p.object? owner = some object)
      (hitems : (object.lookup key).getD (.array []) = .array items)
      (hid : Dict.contains p.objects id = true) :
      Change fields p (p.setObject owner
        (.dictionary (Dict.insert object key (.array (items ++ [.string id])))))

namespace Change

variable {fields : List String} {p p' : Project}

lemma frame (h : Change fields p p') : p' = { p with objects := p'.objects } := by
  cases h <;> rfl

lemma contains (h : Change fields p p') {id : ObjectId}
    (hid : Dict.contains p.objects id = true) : Dict.contains p'.objects id = true := by
  cases h <;> exact Dict.contains_insert_of_contains hid _ _

/-- What was there before is an object afterwards if it was one. -/
lemma rel_object? (h : Change fields p p') {id : ObjectId}
    (hid : Dict.contains p.objects id = true) :
    Option.Rel (Object.AgreesOutside fields) (p.object? id) (p'.object? id) := by
  have hrefl : ∀ found : Option Object, Option.Rel (Object.AgreesOutside fields) found found := by
    intro found
    cases found with
    | none => exact .none
    | some object => exact .some (.refl fields object)
  cases h with
  | @add fresh object hfresh hnew =>
    rw [object?_setObject, if_neg (Dict.ne_of_contains hid hfresh)]
    exact hrefl _
  | @append owner child object key items hkey howner hitems hchild =>
    rw [object?_setObject]
    by_cases hne : id = owner
    · subst hne
      rw [if_pos rfl, howner]
      refine .some ⟨Object.text?_insert_array hitems, ?_⟩
      intro other hother
      exact Object.ids_insert_of_ne _ fun heq => hother (heq ▸ hkey)
    · rw [if_neg hne]
      exact hrefl _

/-- An object that was there has the same strings, and the same lists outside `fields`. -/
lemma exists_object? (h : Change fields p p') {id : ObjectId} {object : Object}
    (hobject : p.object? id = some object) :
    ∃ object', p'.object? id = some object' ∧ Object.AgreesOutside fields object object' := by
  have hrel := h.rel_object? (contains_of_object? hobject)
  rw [hobject] at hrel
  generalize p'.object? id = found at hrel ⊢
  cases hrel with
  | some hagrees => exact ⟨_, rfl, hagrees⟩

/-- An object was there, or it is a new one. -/
lemma old_or_new (h : Change fields p p') {id : ObjectId} {object' : Object}
    (hobject : p'.object? id = some object') :
    (∃ object, p.object? id = some object ∧ Object.AgreesOutside fields object object') ∨
      (Dict.contains p.objects id = false ∧ NewObject object') := by
  cases hid : Dict.contains p.objects id with
  | true =>
    have hrel := h.rel_object? hid
    rw [hobject] at hrel
    generalize p.object? id = found at hrel ⊢
    cases hrel with
    | some hagrees => exact .inl ⟨_, rfl, hagrees⟩
  | false =>
    refine .inr ⟨rfl, ?_⟩
    have hnone := object?_of_contains_eq_false hid
    cases h with
    | @add fresh made hfresh hnew =>
      rw [object?_setObject] at hobject
      split at hobject
      · cases hobject
        exact hnew
      · rw [hnone] at hobject
        cases hobject
    | @append owner child grown key items hkey howner hitems hchild =>
      have hne := Dict.ne_of_contains (contains_of_object? howner) hid
      rw [object?_setObject, if_neg hne.symm, hnone] at hobject
      cases hobject

/-- A list outside `fields` stays as it is. -/
lemma ids_eq (h : Change fields p p') {key : String} (hkey : key ∉ fields) (id : ObjectId) :
    p'.objects.ids id key = p.objects.ids id key := by
  show ((p'.object? id).map (Object.ids · key)).getD [] =
    ((p.object? id).map (Object.ids · key)).getD []
  cases hobject : p.object? id with
  | some object =>
    obtain ⟨object', hobject', hagrees⟩ := h.exists_object? hobject
    simp [hobject', hagrees.ids key hkey]
  | none =>
    cases hobject' : p'.object? id with
    | none => rfl
    | some object' =>
      rcases h.old_or_new hobject' with ⟨object, hold, -⟩ | ⟨-, hnew⟩
      · rw [hobject] at hold
        cases hold
      · simp [hnew.ids_eq_nil]

/-- What is in a list was there, or is the id of an object. -/
lemma mem_ids (h : Change fields p p') {id : ObjectId} {object object' : Object}
    (hobject : p.object? id = some object) (hobject' : p'.object? id = some object')
    {key : String} {child : ObjectId} (hchild : child ∈ object'.ids key) :
    child ∈ object.ids key ∨ Dict.contains p.objects child = true := by
  cases h with
  | @add fresh made hfresh hnew =>
    have hne := Dict.ne_of_contains (contains_of_object? hobject) hfresh
    rw [object?_setObject, if_neg hne, hobject] at hobject'
    cases hobject'
    exact .inl hchild
  | @append owner listed grown field items hkey howner hitems hlisted =>
    rw [object?_setObject] at hobject'
    split at hobject'
    · next heq =>
      subst heq
      rw [hobject] at howner
      cases howner
      cases hobject'
      by_cases hfield : key = field
      · subst hfield
        rw [Object.ids_insert_append hitems, List.mem_append, List.mem_singleton] at hchild
        rcases hchild with hchild | rfl
        · exact .inl hchild
        · exact .inr hlisted
      · rw [Object.ids_insert_of_ne _ hfield] at hchild
        exact .inl hchild
    · rw [hobject] at hobject'
      cases hobject'
      exact .inl hchild

/-- A string field of an object stays as it is. -/
lemma text?_eq (h : Change fields p p') {id : ObjectId} {key text : String}
    (htext : p.objects.text? id key = some text) : p'.objects.text? id key = some text := by
  obtain ⟨object, hobject, hkey⟩ := Option.bind_eq_some_iff.mp htext
  obtain ⟨object', hobject', hagrees⟩ := h.exists_object? hobject
  exact Option.bind_eq_some_iff.mpr ⟨object', hobject', (hagrees.text key).trans hkey⟩

end Change

/-- Changes one after the other. -/
def Edits (fields : List String) : Project → Project → Prop :=
  Relation.ReflTransGen (Change fields)

namespace Edits

variable {fields : List String} {p p' p'' : Project}

lemma refl (p : Project) : Edits fields p p :=
  Relation.ReflTransGen.refl

lemma trans (h : Edits fields p p') (h' : Edits fields p' p'') : Edits fields p p'' :=
  Relation.ReflTransGen.trans h h'

lemma frame (h : Edits fields p p') : p' = { p with objects := p'.objects } := by
  induction h with
  | refl => rfl
  | tail _ hchange ih =>
    rw [hchange.frame, ih]

/-- A string field of an object stays as it is. -/
lemma text?_eq (h : Edits fields p p') {id : ObjectId} {key text : String}
    (htext : p.objects.text? id key = some text) : p'.objects.text? id key = some text := by
  induction h with
  | refl => exact htext
  | tail _ hchange ih => exact hchange.text?_eq ih

end Edits

/-! ## A new object and its owner -/

lemma appendId_eq_ok {p p' : Project} {owner id : ObjectId} {key : String}
    (h : p.appendId owner key id = .ok p') :
    ∃ object items, p.object? owner = some object ∧
      (object.lookup key).getD (.array []) = .array items ∧
      p' = p.setObject owner
        (.dictionary (Dict.insert object key (.array (items ++ [.string id])))) := by
  unfold appendId at h
  split at h
  · cases h
  · next object hobject =>
    split at h
    · next items hitems =>
      cases h
      exact ⟨object, items, hobject, hitems, rfl⟩
    · cases h

lemma edits_addOwned {fields : List String} {p : Project} {key : String} {id : ObjectId}
    {object : Object} (hkey : key ∈ fields) (hfresh : Dict.contains p.objects id = false)
    (hnew : NewObject object) (owner : ObjectId) :
    Edits fields p (p.addOwned owner key id object).state := by
  have hadd : Change fields p (p.setObject id (.dictionary object)) := .add hfresh hnew
  unfold addOwned
  simp only
  split
  · next appended happend =>
    obtain ⟨grown, items, howner, hitems, rfl⟩ := appendId_eq_ok happend
    refine Relation.ReflTransGen.tail (.single hadd) (.append hkey howner hitems ?_)
    rw [setObject, Dict.contains_insert]
    simp
  · exact .single hadd

end Project

end XcodeProject
