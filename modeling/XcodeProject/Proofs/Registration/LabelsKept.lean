import Mathlib
import XcodeProject.Proofs.Document.LabelMeaning
import XcodeProject.Proofs.Project.Extension
import XcodeProject.Proofs.PropertyList.Spelling

/-!
# New objects leave the labels of the old ones alone

The labels of a table are computed in two passes over all of its objects, and in the second pass an
object may write over what others wrote and may read what they wrote before.  So it needs an argument
that the labels of old ids are the same when the table has new objects in it (`Enlarged`), anywhere
in the order of ids.

The argument is that the two passes over the smaller and over the larger table stay in agreement on
old ids (`AgreeOnOld`).  An old object writes the same to the labels, and after that perhaps labels
of new ids.  A new object writes labels of new ids only, because all that it lists is new.  And
what is read is always under an old id, because nothing in the smaller table mentions a new one.
-/

namespace XcodeProject.Document

open PropertyList
open ObjectTable (IsNew Grown)

/-- A table after paths were registered, and the one before, which mentions none of the new ids. -/
structure Enlarged (before after : ObjectTable) : Prop where
  /-- The smaller table is canonical. -/
  canonical : (Value.dictionary before).Canonical
  /-- The larger table is canonical. -/
  canonical_after : (Value.dictionary after).Canonical
  /-- Objects have come to the table, and ids to the lists that registration puts ids into. -/
  grown : before.Extends IsRegisteredList after
  /-- No string of the smaller table is a new id. -/
  unmentioned : ∀ text ∈ (Value.dictionary before).strings, ¬ IsNew before after text

/-- The labels are the same for the ids that are not new. -/
def AgreeOnOld (isNew : ObjectId → Prop) (labels labels' : Labels) : Prop :=
  ∀ id, ¬ isNew id → labels'.lookup id = labels.lookup id

namespace AgreeOnOld

variable {isNew : ObjectId → Prop} {labels labels' : Labels}

lemma insert (h : AgreeOnOld isNew labels labels') (id : ObjectId) (label : String) :
    AgreeOnOld isNew (Dict.insert labels id label) (Dict.insert labels' id label) := by
  intro other hother
  rw [Dict.lookup_insert, Dict.lookup_insert, h other hother]

/-- Labels that are written under new ids change nothing about the old ones. -/
lemma foldl_new (h : AgreeOnOld isNew labels labels') {files : List ObjectId}
    (hfiles : ∀ file ∈ files, isNew file) (label : Labels → ObjectId → String) :
    AgreeOnOld isNew labels
      (files.foldl (fun labels file => Dict.insert labels file (label labels file)) labels') := by
  intro id hid
  rw [Labels.lookup_foldl_of_notMem fun hmem => hid (hfiles id hmem)]
  exact h id hid

end AgreeOnOld

/-! ## What old objects say about themselves -/

section Object

variable {isNew : ObjectId → Prop} {object object' : Object}

lemma ownName_eq {allowed : String → Prop} (h : object.Extends allowed isNew object') :
    ownName object' = ownName object := by
  simp only [ownName, h.kind_eq, h.text?_eq]

lemma ownerName_eq {allowed : String → Prop} (h : object.Extends allowed isNew object')
    (projectName : Option String) :
    Labels.ownerName projectName object' = Labels.ownerName projectName object := by
  simp only [Labels.ownerName, h.kind_eq, h.text?_eq]

lemma builtId?_eq (h : object.Extends (IsRegisteredList object.kind) isNew object') :
    builtId? object' = builtId? object := by
  have hkeep : ∀ key, key ∉ listFields → object'.lookup key = object.lookup key :=
    fun key hkey => h.lookup_eq fun hlist => hkey hlist.mem_listFields
  rw [builtId?, builtId?, hkeep "fileRef" (by decide), hkeep "productRef" (by decide)]

lemma mem_strings_of_mem_ids {key : String} {id : ObjectId} (h : id ∈ object.ids key) :
    id ∈ (Value.dictionary object).strings := by
  obtain ⟨item, hitem, hid⟩ := List.mem_filterMap.mp h
  obtain rfl := Value.string?_eq_some.mp hid
  cases hlookup : object.lookup key with
  | none => simp [hlookup] at hitem
  | some value =>
    cases value with
    | string text => simp [hlookup, Value.array?] at hitem
    | dictionary entries => simp [hlookup, Value.array?] at hitem
    | array items =>
      have hmem : Value.string id ∈ items := by simpa [hlookup, Value.array?] using hitem
      exact Value.mem_strings_of_lookup hlookup
        (Value.mem_strings_array.mpr ⟨_, hmem, Value.mem_strings_string id⟩)

end Object

/-! ## What the tables say about old ids -/

namespace Enlarged

variable {before after : ObjectTable}

lemma sorted (h : Enlarged before after) : Dict.Sorted before :=
  (Value.canonical_dictionary.mp h.canonical).1

lemma sorted_after (h : Enlarged before after) : Dict.Sorted after :=
  (Value.canonical_dictionary.mp h.canonical_after).1

lemma not_isNew_of_lookup {id : ObjectId} {value : Value} (hid : before.lookup id = some value) :
    ¬ IsNew before after id := by
  rintro ⟨hnone, -⟩
  rw [Dict.contains_of_lookup hid] at hnone
  cases hnone

/-- What an old object mentions is not new. -/
lemma not_isNew_of_mem (h : Enlarged before after) {id text : ObjectId} {object : Object}
    (hobject : before.object? id = some object) (htext : text ∈ (Value.dictionary object).strings) :
    ¬ IsNew before after text :=
  h.unmentioned text
    (Value.mem_strings_of_lookup (ObjectTable.object?_eq_some.mp hobject) htext)

lemma not_isNew_of_text? (h : Enlarged before after) {id text : ObjectId} {object : Object}
    (hobject : before.object? id = some object) {key : String}
    (htext : object.text? key = some text) : ¬ IsNew before after text := by
  obtain ⟨value, hlookup, hstring⟩ := Option.bind_eq_some_iff.mp htext
  obtain rfl := Value.string?_eq_some.mp hstring
  exact h.not_isNew_of_mem hobject
    (Value.mem_strings_of_lookup hlookup (Value.mem_strings_string text))

/-- Under an id that is not new there is an object in both tables or in neither. -/
lemma rel_object? (h : Enlarged before after) {id : ObjectId} (hid : ¬ IsNew before after id) :
    Option.Rel (fun object object' => Object.Extends (IsRegisteredList object.kind)
      (IsNew before after) object object') (before.object? id) (after.object? id) := by
  cases hobject : before.object? id with
  | some object =>
    obtain ⟨object', hobject', hextends⟩ := h.grown.object? hobject
    rw [hobject']
    exact .some hextends
  | none =>
    cases hobject' : after.object? id with
    | none => exact .none
    | some object' =>
      exfalso
      have hafter := ObjectTable.object?_eq_some.mp hobject'
      cases hbefore : before.lookup id with
      | none =>
        have hfalse : Dict.contains before id = false := by simp [Dict.contains, hbefore]
        exact hid ⟨hfalse, Dict.contains_of_lookup hafter⟩
      | some value =>
        obtain ⟨value', hvalue', hgrown⟩ := h.grown.old id value hbefore
        obtain rfl := Option.some.inj (hafter.symm.trans hvalue')
        cases value with
        | string text => cases hgrown
        | array items => cases hgrown
        | dictionary object =>
          rw [ObjectTable.object?_eq_some.mpr hbefore] at hobject
          cases hobject

/-- What is read off an object, if it does not depend on the lists that grow, is the same. -/
lemma bind_object?_eq {α : Type} (h : Enlarged before after) {id : ObjectId}
    (hid : ¬ IsNew before after id) {read : Object → Option α}
    (hread : ∀ object object', Object.Extends (IsRegisteredList object.kind) (IsNew before after)
      object object' → read object' = read object) :
    (after.object? id).bind read = (before.object? id).bind read := by
  have hrel := h.rel_object? hid
  generalize before.object? id = found, after.object? id = found' at hrel ⊢
  cases hrel with
  | none => rfl
  | some hextends => exact hread _ _ hextends

lemma kind?_eq (h : Enlarged before after) {id : ObjectId} (hid : ¬ IsNew before after id) :
    after.kind? id = before.kind? id :=
  h.bind_object?_eq hid fun _ _ hextends => hextends.text?_eq "isa"

/-! ## The first pass -/

lemma agree_ownNames (h : Enlarged before after) :
    AgreeOnOld (IsNew before after) (Labels.ownNames before) (Labels.ownNames after) := by
  intro id hid
  rw [Labels.lookup_ownNames h.sorted, Labels.lookup_ownNames h.sorted_after]
  exact h.bind_object?_eq hid fun _ _ => ownName_eq

/-! ## The second pass -/

variable {labels labels' : Labels}

lemma buildFileLabel_eq (h : Enlarged before after)
    (hlabels : AgreeOnOld (IsNew before after) labels labels') (phase : String) {file : ObjectId}
    (hfile : ¬ IsNew before after file) :
    Labels.buildFileLabel after labels' phase file =
      Labels.buildFileLabel before labels phase file := by
  have hbuilt : (after.object? file).bind builtId? = (before.object? file).bind builtId? :=
    h.bind_object?_eq hfile fun _ _ => builtId?_eq
  unfold Labels.buildFileLabel
  rw [hbuilt]
  cases hid : (before.object? file).bind builtId? with
  | none => rfl
  | some built =>
    obtain ⟨object, hobject, hbuiltId⟩ := Option.bind_eq_some_iff.mp hid
    obtain ⟨key, -, htext⟩ := exists_text?_of_builtId? hbuiltId
    have hold := h.not_isNew_of_text? hobject htext
    rw [Option.bind_some, Option.bind_some, hlabels built hold]

lemma agree_foldl_old (h : Enlarged before after)
    (hlabels : AgreeOnOld (IsNew before after) labels labels') (phase : String)
    {files : List ObjectId} (hfiles : ∀ file ∈ files, ¬ IsNew before after file) :
    AgreeOnOld (IsNew before after)
      (files.foldl (fun labels file =>
        Dict.insert labels file (Labels.buildFileLabel before labels phase file)) labels)
      (files.foldl (fun labels file =>
        Dict.insert labels file (Labels.buildFileLabel after labels phase file)) labels') := by
  induction files generalizing labels labels' with
  | nil => exact hlabels
  | cons file rest ih =>
    obtain ⟨hfile, hrest⟩ := List.forall_mem_cons.mp hfiles
    rw [List.foldl_cons, List.foldl_cons, h.buildFileLabel_eq hlabels phase hfile]
    exact ih (hlabels.insert file _) hrest

section OldObject

variable {id : ObjectId} {object object' : Object}

/-- An old phase labels the build files that it listed as before, and those it lists now only after
that. -/
lemma agree_addPhase (h : Enlarged before after)
    (hlabels : AgreeOnOld (IsNew before after) labels labels')
    (hobject : before.object? id = some object)
    (hextends : object.Extends (IsRegisteredList object.kind) (IsNew before after) object') :
    AgreeOnOld (IsNew before after) (Labels.addPhase before labels id object)
      (Labels.addPhase after labels' id object') := by
  obtain ⟨more, hids, hmore⟩ := hextends.exists_ids_eq "files"
  have hphase : labels'.lookup id = labels.lookup id :=
    hlabels id (not_isNew_of_lookup (ObjectTable.object?_eq_some.mp hobject))
  have hfiles : ∀ file ∈ object.ids "files", ¬ IsNew before after file :=
    fun file hfile => h.not_isNew_of_mem hobject (mem_strings_of_mem_ids hfile)
  unfold Labels.addPhase
  rw [hextends.kind_eq]
  split
  · simp only [hphase, hids, List.foldl_append]
    exact (h.agree_foldl_old hlabels _ hfiles).foldl_new hmore _
  · exact hlabels

lemma agree_addOwner (h : Enlarged before after) (projectName : Option String)
    (hlabels : AgreeOnOld (IsNew before after) labels labels')
    (hextends : object.Extends (IsRegisteredList object.kind) (IsNew before after) object') :
    AgreeOnOld (IsNew before after) (Labels.addOwner before projectName labels object)
      (Labels.addOwner after projectName labels' object') := by
  intro other hother
  have howns : Owns after other object' ↔ Owns before other object := by
    rw [Owns, Owns, h.kind?_eq hother, hextends.text?_eq]
  rw [Labels.lookup_addOwner, Labels.lookup_addOwner, hlabels other hother, hextends.kind_eq,
    ownerName_eq hextends]
  simp only [howns]

lemma agree_addEntry (h : Enlarged before after) (projectName : Option String)
    (hlabels : AgreeOnOld (IsNew before after) labels labels') {value value' : Value}
    (hvalue : before.lookup id = some value)
    (hgrown : Grown IsRegisteredList (IsNew before after) value value') :
    AgreeOnOld (IsNew before after) (Labels.addEntry before projectName labels (id, value))
      (Labels.addEntry after projectName labels' (id, value')) := by
  cases value with
  | string text =>
    cases hgrown
    exact hlabels
  | array items =>
    cases hgrown
    exact hlabels
  | dictionary object =>
    obtain ⟨object', rfl, hextends⟩ := hgrown
    have hobject := ObjectTable.object?_eq_some.mpr hvalue
    exact h.agree_addOwner projectName (h.agree_addPhase hlabels hobject hextends) hextends

end OldObject

/-- A new object labels nothing old, since it lists nothing old and has no configuration list. -/
lemma agree_addEntry_new (projectName : Option String)
    (hlabels : AgreeOnOld (IsNew before after) labels labels') {id : ObjectId} {made : Object}
    {value : Value} (hnew : Project.NewObject made)
    (hgrown : Grown IsRegisteredList (IsNew before after) (.dictionary made) value) :
    AgreeOnOld (IsNew before after) labels
      (Labels.addEntry after projectName labels' (id, value)) := by
  obtain ⟨object, rfl, hextends⟩ := hgrown
  have hlist : Object.text? object "buildConfigurationList" = none := by
    rw [hextends.text?_eq]
    cases hnew <;> rfl
  obtain ⟨more, hids, hmore⟩ := hextends.exists_ids_eq "files"
  rw [hnew.ids_eq_nil, List.nil_append] at hids
  have hentry : Labels.addEntry after projectName labels' (id, .dictionary object) =
      Labels.addPhase after labels' id object := by
    simp only [Labels.addEntry, Value.dictionary?, Labels.addOwner, hlist]
  rw [hentry, Labels.addPhase, hids]
  split
  · exact hlabels.foldl_new hmore _
  · exact hlabels

/-- The labels of old ids are what they were. -/
theorem labels_agree (h : Enlarged before after) (projectName : Option String) :
    AgreeOnOld (IsNew before after) (.ofTable before projectName) (.ofTable after projectName) := by
  have hold : ∀ id value, before.lookup id = some value → ∃ value', after.lookup id = some value' ∧
      (before.lookup id = some value ∧
        Grown IsRegisteredList (IsNew before after) value value') := by
    intro id value hvalue
    obtain ⟨value', hvalue', hgrown⟩ := h.grown.old id value hvalue
    exact ⟨value', hvalue', hvalue, hgrown⟩
  refine (h.sorted.embeds h.sorted_after hold h.grown.new).foldl ?_ ?_ h.agree_ownNames
  · rintro labels labels' ⟨id, value⟩ ⟨id', value'⟩ ⟨rfl, hvalue, hgrown⟩ hlabels
    exact h.agree_addEntry projectName hlabels hvalue hgrown
  · rintro labels labels' ⟨id, value⟩ ⟨made, hnew, hgrown⟩ hlabels
    exact agree_addEntry_new projectName hlabels hnew hgrown

end Enlarged

end XcodeProject.Document
