import Mathlib
import XcodeProject.Proofs.Project.Additions

/-!
# What additions leave in place

Additions are described step by step; this module says what any number of them come to, as a
relation between the object tables before and after (`ObjectTable.Extends`).  An object that was
there has all its entries, except that ids have gone to the end of some of its lists.  An entry of
the table that is not an object is what it was.  And what was not there is one of the objects that
edits make, with ids at the end of its lists.  The ids are in every case those of objects that were
not there before.

The relation is transitive, since what is new later was not there earlier either.  So it is enough
to know that one addition has it (`extends_addOwned`).
-/

namespace XcodeProject

open PropertyList (Value)

/-! ## Objects -/

namespace Object

/-- Ids have gone to the end of lists of an object, and nothing else is different.  A list that was
not there counts as an empty one. -/
def Extends (allowed : String → Prop) (isNew : ObjectId → Prop) (object object' : Object) : Prop :=
  ∀ key, object'.lookup key = object.lookup key ∨
    allowed key ∧ ∃ (items : List Value) (ids : List ObjectId),
      (object.lookup key).getD (.array []) = .array items ∧
      object'.lookup key = some (.array (items ++ ids.map Value.string)) ∧ ∀ id ∈ ids, isNew id

namespace Extends

variable {allowed : String → Prop} {isNew isNew' : ObjectId → Prop}
  {object object' object'' : Object}

lemma refl (object : Object) : Extends allowed isNew object object :=
  fun _ => .inl rfl

lemma mono (hnew : ∀ id, isNew id → isNew' id) (h : Extends allowed isNew object object') :
    Extends allowed isNew' object object' := by
  intro key
  refine (h key).imp_right ?_
  rintro ⟨hallowed, items, ids, hitems, hlookup, hids⟩
  exact ⟨hallowed, items, ids, hitems, hlookup, fun id hid => hnew id (hids id hid)⟩

lemma trans (h : Extends allowed isNew object object')
    (h' : Extends allowed isNew object' object'') : Extends allowed isNew object object'' := by
  intro key
  rcases h key with hsame | ⟨hallowed, items, ids, hitems, hlookup, hids⟩
  · rw [← hsame]
    exact h' key
  · right
    rcases h' key with hsame' | ⟨-, items', ids', hitems', hlookup', hids'⟩
    · exact ⟨hallowed, items, ids, hitems, hsame'.trans hlookup, hids⟩
    · -- The list has grown twice, the second time behind what came the first time.
      rw [hlookup, Option.getD_some] at hitems'
      cases hitems'
      refine ⟨hallowed, items, ids ++ ids', hitems, ?_, ?_⟩
      · rw [hlookup', List.map_append, List.append_assoc]
      · intro id hid
        exact (List.mem_append.mp hid).elim (hids id) (hids' id)

/-- One id at the end of one list. -/
lemma insert_append {key : String} {items : List Value} {id : ObjectId} (hallowed : allowed key)
    (hitems : (object.lookup key).getD (.array []) = .array items) (hid : isNew id) :
    Extends allowed isNew object
      (Dict.insert object key (.array (items ++ [.string id]))) := by
  intro other
  rw [Dict.lookup_insert]
  by_cases hother : other = key
  · subst hother
    refine .inr ⟨hallowed, items, [id], hitems, if_pos rfl, ?_⟩
    simpa using hid
  · exact .inl (if_neg hother)

lemma lookup_eq (h : Extends allowed isNew object object') {key : String} (hkey : ¬ allowed key) :
    object'.lookup key = object.lookup key :=
  (h key).resolve_right fun hgrown => hkey hgrown.1

/-- A list is not a string, before or after it has grown. -/
lemma text?_eq (h : Extends allowed isNew object object') (key : String) :
    object'.text? key = object.text? key := by
  unfold text?
  rcases h key with hsame | ⟨-, items, ids, hitems, hlookup, -⟩
  · rw [hsame]
  · rw [hlookup]
    cases hold : object.lookup key with
    | none => rfl
    | some value =>
      rw [hold, Option.getD_some] at hitems
      rw [hitems]
      rfl

lemma kind_eq (h : Extends allowed isNew object object') : object'.kind = object.kind := by
  rw [kind, kind, h.text?_eq]

lemma exists_ids_eq (h : Extends allowed isNew object object') (key : String) :
    ∃ more, object'.ids key = object.ids key ++ more ∧ ∀ id ∈ more, isNew id := by
  unfold ids
  rcases h key with hsame | ⟨-, items, ids, hitems, hlookup, hids⟩
  · refine ⟨[], ?_, by simp⟩
    rw [hsame, List.append_nil]
  · refine ⟨ids, ?_, hids⟩
    have hold : ((object.lookup key).bind Value.array?).getD [] = items := by
      cases hvalue : object.lookup key with
      | none =>
        rw [hvalue, Option.getD_none] at hitems
        cases hitems
        rfl
      | some value =>
        rw [hvalue, Option.getD_some] at hitems
        rw [hitems]
        rfl
    have hstrings : (ids.map Value.string).filterMap Value.string? = ids := by
      simp [List.filterMap_map, Function.comp_def, Value.string?]
    rw [hold, hlookup, Option.bind_some, Value.array?, Option.getD_some, List.filterMap_append,
      hstrings]

end Extends

end Object

/-! ## Tables -/

namespace ObjectTable

/-- The id is in the table afterwards and was not there before. -/
def IsNew (before after : ObjectTable) (id : ObjectId) : Prop :=
  Dict.contains before id = false ∧ Dict.contains after id = true

instance (before after : ObjectTable) (id : ObjectId) : Decidable (IsNew before after id) :=
  inferInstanceAs (Decidable (_ ∧ _))

/-- An object has ids at the end of its lists, as far as `rule` lets lists grow in objects of its
kind.  An entry of the table that is not an object is what it was. -/
def Grown (rule : String → String → Prop) (isNew : ObjectId → Prop) (value : Value) :
    Value → Prop :=
  match value with
  | .dictionary object => fun value' => ∃ object', value' = .dictionary object' ∧
      Object.Extends (rule (Object.kind object)) isNew object object'
  | value => fun value' => value' = value

namespace Grown

variable {rule : String → String → Prop} {isNew isNew' : ObjectId → Prop}
  {value value' value'' : Value}

lemma refl (value : Value) : Grown rule isNew value value := by
  cases value with
  | string text => rfl
  | array items => rfl
  | dictionary object => exact ⟨object, rfl, .refl object⟩

lemma mono (hnew : ∀ id, isNew id → isNew' id) (h : Grown rule isNew value value') :
    Grown rule isNew' value value' := by
  cases value with
  | string text => exact h
  | array items => exact h
  | dictionary object =>
    obtain ⟨object', rfl, hextends⟩ := h
    exact ⟨object', rfl, hextends.mono hnew⟩

lemma trans (h : Grown rule isNew value value') (h' : Grown rule isNew value' value'') :
    Grown rule isNew value value'' := by
  cases value with
  | string text =>
    cases h
    exact h'
  | array items =>
    cases h
    exact h'
  | dictionary object =>
    obtain ⟨object', rfl, hextends⟩ := h
    obtain ⟨object'', rfl, hextends'⟩ := h'
    rw [hextends.kind_eq] at hextends'
    exact ⟨object'', rfl, hextends.trans hextends'⟩

end Grown

/-- What the table holds after additions, given what it held before. -/
structure Extends (rule : String → String → Prop) (before after : ObjectTable) : Prop where
  /-- What was there is there, but for ids at the end of lists. -/
  old : ∀ id value, before.lookup id = some value →
    ∃ value', after.lookup id = some value' ∧ Grown rule (IsNew before after) value value'
  /-- What was not there is a new object, perhaps with ids at the end of its lists. -/
  new : ∀ id value, before.lookup id = none → after.lookup id = some value →
    ∃ made, Project.NewObject made ∧ Grown rule (IsNew before after) (.dictionary made) value

namespace Extends

variable {rule : String → String → Prop} {before middle after : ObjectTable}

lemma refl (table : ObjectTable) : Extends rule table table := by
  refine ⟨fun id value h => ⟨value, h, .refl value⟩, ?_⟩
  intro id value hnone hsome
  rw [hnone] at hsome
  cases hsome

lemma contains (h : Extends rule before after) {id : ObjectId}
    (hid : Dict.contains before id = true) : Dict.contains after id = true := by
  obtain ⟨value, hvalue⟩ := Option.isSome_iff_exists.mp hid
  obtain ⟨value', hvalue', -⟩ := h.old id value hvalue
  exact Dict.contains_of_lookup hvalue'

lemma object? (h : Extends rule before after) {id : ObjectId} {object : Object}
    (hobject : before.object? id = some object) : ∃ object', after.object? id = some object' ∧
      object.Extends (rule object.kind) (IsNew before after) object' := by
  obtain ⟨value', hvalue', object', rfl, hextends⟩ := h.old id _ (object?_eq_some.mp hobject)
  exact ⟨object', object?_eq_some.mpr hvalue', hextends⟩

lemma trans (h : Extends rule before middle) (h' : Extends rule middle after) :
    Extends rule before after := by
  have hfirst : ∀ id, IsNew before middle id → IsNew before after id :=
    fun id hid => ⟨hid.1, h'.contains hid.2⟩
  have hsecond : ∀ id, IsNew middle after id → IsNew before after id := by
    intro id hid
    refine ⟨Bool.eq_false_iff.mpr fun hold => ?_, hid.2⟩
    have hmiddle := h.contains hold
    rw [hid.1] at hmiddle
    cases hmiddle
  constructor
  · intro id value hvalue
    obtain ⟨value', hvalue', hgrown⟩ := h.old id value hvalue
    obtain ⟨value'', hvalue'', hgrown'⟩ := h'.old id value' hvalue'
    exact ⟨value'', hvalue'', (hgrown.mono hfirst).trans (hgrown'.mono hsecond)⟩
  · intro id value hnone hsome
    cases hmiddle : middle.lookup id with
    | none =>
      obtain ⟨made, hnew, hgrown⟩ := h'.new id value hmiddle hsome
      exact ⟨made, hnew, hgrown.mono hsecond⟩
    | some found =>
      obtain ⟨made, hnew, hgrown⟩ := h.new id found hnone hmiddle
      obtain ⟨value', hvalue', hgrown'⟩ := h'.old id found hmiddle
      obtain rfl := Option.some.inj (hsome.symm.trans hvalue')
      exact ⟨made, hnew, (hgrown.mono hfirst).trans (hgrown'.mono hsecond)⟩

/-- One new object, and one object whose lists may have grown. -/
lemma of_lookup {owner id : ObjectId} {object object' made : Object}
    (howner : before.lookup owner = some (.dictionary object))
    (hid : Dict.contains before id = false) (hnew : Project.NewObject made)
    (hextends : object.Extends (rule object.kind) (IsNew before after) object')
    (hafter : ∀ other, after.lookup other = if other = id then some (.dictionary made)
      else if other = owner then some (.dictionary object') else before.lookup other) :
    Extends rule before after := by
  constructor
  · intro other value hvalue
    have hne : other ≠ id := Dict.ne_of_contains (Dict.contains_of_lookup hvalue) hid
    rw [hafter, if_neg hne]
    by_cases hother : other = owner
    · subst hother
      obtain rfl := Option.some.inj (hvalue.symm.trans howner)
      exact ⟨_, if_pos rfl, object', rfl, hextends⟩
    · rw [if_neg hother]
      exact ⟨value, hvalue, .refl value⟩
  · intro other value hnone hsome
    rw [hafter] at hsome
    split at hsome
    · cases hsome
      exact ⟨made, hnew, .refl _⟩
    · split at hsome
      · next heq =>
        rw [← heq, hnone] at howner
        cases howner
      · rw [hnone] at hsome
        cases hsome

end Extends

end ObjectTable

/-! ## Additions -/

namespace Project

variable {rule : String → String → Prop} {p p' : Project}

lemma extends_addOwned {owner id : ObjectId} {object made : Object} {key : String}
    (howner : p.object? owner = some object) (hrule : rule object.kind key)
    (hid : Dict.contains p.objects id = false) (hnew : NewObject made) :
    p.objects.Extends rule (p.addOwned owner key id made).state.objects := by
  have hne : owner ≠ id := Dict.ne_of_contains (contains_of_object? howner) hid
  have hlookup := ObjectTable.object?_eq_some.mp howner
  unfold addOwned
  simp only
  split
  · next appended happend =>
    obtain ⟨found, items, hfound, hitems, rfl⟩ := appendId_eq_ok happend
    rw [object?_setObject, if_neg hne, howner] at hfound
    cases hfound
    refine .of_lookup hlookup hid hnew (.insert_append hrule hitems ⟨hid, ?_⟩) ?_
    · simp only [setObject, Dict.contains_insert, beq_self_eq_true, Bool.true_or, Bool.or_true]
    · intro other
      simp only [setObject, Dict.lookup_insert]
      by_cases hother : other = id
      · rw [if_pos hother, if_pos hother, if_neg (hother ▸ hne.symm)]
      · rw [if_neg hother, if_neg hother]
  · refine .of_lookup hlookup hid hnew (.refl object) ?_
    intro other
    simp only [setObject, Dict.lookup_insert]
    by_cases hother : other = owner
    · rw [hother, if_pos rfl, hlookup]
    · rw [if_neg hother]

/-- What additions come to. -/
theorem Additions.extends (h : Additions rule p p') : p.objects.Extends rule p'.objects := by
  induction h with
  | refl => exact .refl p.objects
  | tail _ hadd ih =>
    obtain ⟨howner, hrule, hfresh, hnew⟩ := hadd
    exact ih.trans (extends_addOwned howner hrule hfresh hnew)

end Project

end XcodeProject
