import Mathlib
import XcodeProject.Proofs.Registration.Idempotence
import XcodeProject.Proofs.Registration.LabelsKept

/-!
# Registration only inserts lines

The text of a project before paths were registered is in the text afterwards line by line, in the
same order (`registration_only_inserts_lines`).  The proof follows the layout from the inside to the
outside.  A list that has grown has its old items in front (`lines_array_sublist`), an object has its
entries in the order they had (`lines_sublist_of_extends`), a section has its objects in the order of
their ids, and the table has its sections in the order of their kinds (`tableLines_sublist`).  At
each of these levels one dictionary in key order lies in another one (`Dict.Sorted.embeds`).

That the lines themselves are the same, and do not only have the same places, is due to the labels
being the same (`Enlarged.labels_agree`).  Where an object takes a single line, it has to be the same
object: but a list that grows is never one of an object that is written on one line.
-/

namespace XcodeProject.Document

open PropertyList
open ObjectTable (IsNew Grown)

/-! ## Spellings -/

variable {before after : ObjectTable} {labels labels' : Labels}

lemma reference_eq {isNew : ObjectId → Prop} (hlabels : AgreeOnOld isNew labels labels')
    {id : ObjectId} (hid : ¬ isNew id) : reference labels' id = reference labels id := by
  rw [reference, reference, hlabels id hid]

lemma Enlarged.spelling_eq (h : Enlarged before after)
    (hlabels : AgreeOnOld (IsNew before after) labels labels') {text : String}
    (htext : ¬ IsNew before after text) (key : Option String) :
    spelling after labels' key text = spelling before labels key text := by
  have hcontains : Dict.contains after text = Dict.contains before text := by
    cases hbefore : Dict.contains before text with
    | true => exact h.grown.contains hbefore
    | false => exact Bool.eq_false_iff.mpr fun hafter => htext ⟨hbefore, hafter⟩
  rw [spelling, spelling, hcontains, reference_eq hlabels htext]

/-! ## Objects -/

lemma lines_array_sublist (spell : Spelling) (depth : Nat) (head tail : String)
    (key : Option String) (items more : List Value) :
    (Value.lines spell depth head tail key (.array items)).Sublist
      (Value.lines spell depth head tail key (.array (items ++ more))) := by
  rw [Value.lines, Value.lines, Value.itemLines_eq, Value.itemLines_eq, List.flatMap_append]
  exact ((List.sublist_append_left _ _).cons_cons _).append_right _

/-- The lines of an object are among those that it has after its lists have grown. -/
lemma lines_sublist_of_extends {allowed : String → Prop} {isNew : ObjectId → Prop}
    {object object' : Object} (hsorted : Dict.Sorted object) (hsorted' : Dict.Sorted object')
    (hextends : object.Extends allowed isNew object') {spell spell' : Spelling}
    (hspell : ∀ text ∈ (Value.dictionary object).strings, ∀ key, spell' key text = spell key text)
    (depth : Nat) (head tail : String) (key : Option String) :
    (Value.lines spell depth head tail key (.dictionary object)).Sublist
      (Value.lines spell' depth head tail key (.dictionary object')) := by
  have hkept : ∀ name value, object.lookup name = some value →
      ∃ value', object'.lookup name = some value' ∧
        (Value.lines spell (depth + 1) (Value.entryHead (depth + 1) name) ";" (some name)
          value).Sublist
        (Value.lines spell' (depth + 1) (Value.entryHead (depth + 1) name) ";" (some name)
          value') := by
    intro name value hvalue
    have hsame := Value.lines_congr
      (fun text htext => hspell text (Value.mem_strings_of_lookup hvalue htext)) (depth + 1)
      (Value.entryHead (depth + 1) name) ";" (some name)
    rw [← hsame]
    rcases hextends name with heq | ⟨-, items, ids, hitems, hlookup, -⟩
    · exact ⟨value, heq.trans hvalue, .refl _⟩
    · rw [hvalue, Option.getD_some] at hitems
      subst hitems
      exact ⟨_, hlookup, lines_array_sublist ..⟩
  have hmore : ∀ name value', object.lookup name = none → object'.lookup name = some value' →
      True := fun _ _ _ _ => trivial
  have hembeds := hsorted.embeds hsorted' hkept hmore
  have horder : Dict.Embeds _ _ (isaFirst object) (isaFirst object') :=
    (hembeds.filter fun _ _ hkeep => by rw [hkeep.1]).append
      (hembeds.filter fun _ _ hkeep => by rw [hkeep.1])
  simp only [Value.lines, Value.entryLines_eq, isaFirst_map, List.flatMap_map]
  exact ((horder.sublist_flatMap fun a b hkeep => hkeep.1 ▸ hkeep.2).cons_cons _).append_right _

lemma entryKind_eq {rule : String → String → Prop} {isNew : ObjectId → Prop} {value value' : Value}
    (h : Grown rule isNew value value') : entryKind value' = entryKind value := by
  cases value with
  | string text => rw [h]
  | array items => rw [h]
  | dictionary object =>
    obtain ⟨object', rfl, hextends⟩ := h
    exact hextends.kind_eq

/-- An object that is written on one line has no list that grows. -/
lemma eq_of_inline {isNew : ObjectId → Prop} {value value' : Value} (hcanonical : value.Canonical)
    (hcanonical' : value'.Canonical) (h : Grown IsRegisteredList isNew value value')
    (hkind : entryKind value ∈ Kind.inline) : value' = value := by
  cases value with
  | string text => exact h
  | array items => exact h
  | dictionary object =>
    obtain ⟨object', rfl, hextends⟩ := h
    have hnone : ∀ key, ¬ IsRegisteredList (Object.kind object) key := by
      intro key hlist
      have hall : ∀ list ∈ registeredLists, list.1 ∉ Kind.inline := by decide
      exact hall _ hlist hkind
    have hobject : object' = object :=
      Dict.Sorted.ext (Value.canonical_dictionary.mp hcanonical').1
        (Value.canonical_dictionary.mp hcanonical).1 fun key => hextends.lookup_eq (hnone key)
    rw [hobject]

namespace Enlarged

lemma canonical_of_lookup (h : Enlarged before after) {id : ObjectId} {value : Value}
    (hvalue : before.lookup id = some value) : value.Canonical :=
  (Value.canonical_dictionary.mp h.canonical).2 _ (Dict.mem_of_lookup hvalue)

lemma canonical_of_lookup_after (h : Enlarged before after) {id : ObjectId} {value : Value}
    (hvalue : after.lookup id = some value) : value.Canonical :=
  (Value.canonical_dictionary.mp h.canonical_after).2 _ (Dict.mem_of_lookup hvalue)

lemma entryLines_sublist (h : Enlarged before after)
    (hlabels : AgreeOnOld (IsNew before after) labels labels') {id : ObjectId}
    {value value' : Value} (hvalue : before.lookup id = some value)
    (hvalue' : after.lookup id = some value')
    (hgrown : Grown IsRegisteredList (IsNew before after) value value') :
    (entryLines (spelling before labels) labels (id, value)).Sublist
      (entryLines (spelling after labels') labels' (id, value')) := by
  have hspell : ∀ text ∈ value.strings, ∀ key,
      spelling after labels' key text = spelling before labels key text :=
    fun text htext => h.spelling_eq hlabels
      (h.unmentioned text (Value.mem_strings_of_lookup hvalue htext))
  have hcanonical := h.canonical_of_lookup hvalue
  have hcanonical' := h.canonical_of_lookup_after hvalue'
  simp only [entryLines, reference_eq hlabels (not_isNew_of_lookup hvalue), entryKind_eq hgrown]
  split
  · next hinline =>
    rw [eq_of_inline hcanonical hcanonical' hgrown hinline, Value.inline_congr hspell]
  · cases value with
    | string text =>
      rw [show value' = .string text from hgrown, Value.lines_congr hspell]
    | array items =>
      rw [show value' = .array items from hgrown, Value.lines_congr hspell]
    | dictionary object =>
      obtain ⟨object', rfl, hextends⟩ := hgrown
      exact lines_sublist_of_extends (Value.canonical_dictionary.mp hcanonical).1
        (Value.canonical_dictionary.mp hcanonical').1 hextends hspell 2 _ ";" none

end Enlarged

/-! ## Sections -/

namespace Enlarged

/-- A section is there afterwards, with its old lines in the old order. -/
lemma exists_section (h : Enlarged before after)
    (hlabels : AgreeOnOld (IsNew before after) labels labels') {kind : String}
    {block : List (ObjectId × Value)} (hblock : (sections before).lookup kind = some block) :
    ∃ block', (sections after).lookup kind = some block' ∧
      (block.flatMap (entryLines (spelling before labels) labels)).Sublist
        (block'.flatMap (entryLines (spelling after labels') labels')) := by
  have hold : ∀ id value, before.lookup id = some value → ∃ value', after.lookup id = some value' ∧
      (entryKind value' = entryKind value ∧
        (entryLines (spelling before labels) labels (id, value)).Sublist
          (entryLines (spelling after labels') labels' (id, value'))) := by
    intro id value hvalue
    obtain ⟨value', hvalue', hgrown⟩ := h.grown.old id value hvalue
    exact ⟨value', hvalue', entryKind_eq hgrown, h.entryLines_sublist hlabels hvalue hvalue' hgrown⟩
  have hembeds : Dict.Embeds _ _ (before.filter fun entry => entryKind entry.2 = kind)
      (after.filter fun entry => entryKind entry.2 = kind) :=
    (h.sorted.embeds h.sorted_after hold h.grown.new).filter fun a b hkeep => by rw [hkeep.2.1]
  rw [lookup_sections] at hblock ⊢
  split at hblock
  · cases hblock
  next hsome =>
  cases hblock
  have hsome' : ¬ (after.filter fun entry => entryKind entry.2 = kind).isEmpty := by
    intro hempty
    rw [List.isEmpty_iff.mp hempty] at hembeds
    generalize before.filter _ = block at hembeds hsome
    cases hembeds
    exact hsome rfl
  refine ⟨_, if_neg hsome', hembeds.sublist_flatMap ?_⟩
  rintro ⟨id, value⟩ ⟨id', value'⟩ ⟨rfl, -, hlines⟩
  exact hlines

/-- The table is laid out with its old lines in the old order. -/
lemma tableLines_sublist (h : Enlarged before after)
    (hlabels : AgreeOnOld (IsNew before after) labels labels') :
    (tableLines before labels).Sublist (tableLines after labels') := by
  refine (sorted_sections before).sublist_flatMap (sorted_sections after) ?_
  intro kind block hblock
  obtain ⟨block', hblock', hlines⟩ := h.exists_section hlabels hblock
  exact ⟨block', hblock', (hlines.append_left _).append_right _⟩

/-! ## The whole text -/

lemma rootEntryLines_of_ne {key : String} (hkey : key ≠ "objects") (table : ObjectTable)
    (labels : Labels) (value : Value) : rootEntryLines table labels (key, value) =
      value.lines (spelling table labels) 1 (tabs 1 ++ quote key ++ " = ") ";" (some key) := by
  unfold rootEntryLines
  split
  · next heq => exact absurd (congrArg Prod.fst heq) hkey
  · next heq =>
    cases heq
    rfl

/-- The text of a project whose table is enlarged has the lines that it had. -/
theorem lines_sublist (h : Enlarged before after) {settings : Dict Value}
    (hsorted : Dict.Sorted settings)
    (hroot : ∀ text ∈ (Value.dictionary (Dict.insert settings "objects"
      (.dictionary before))).strings, ¬ IsNew before after text) (projectName : Option String) :
    (lines (Dict.insert settings "objects" (.dictionary before)) projectName).Sublist
      (lines (Dict.insert settings "objects" (.dictionary after)) projectName) := by
  have htable : ∀ table, tableOf (Dict.insert settings "objects" (.dictionary table)) = table := by
    intro table
    simp [tableOf, Dict.lookup_insert, Value.dictionary?]
  have hlabels := h.labels_agree projectName
  simp only [lines, htable]
  refine (List.Sublist.append_left ?_ _).append_right _
  refine (hsorted.insert _ _).sublist_flatMap (hsorted.insert _ _) ?_
  intro key value hvalue
  by_cases hkey : key = "objects"
  · subst hkey
    refine ⟨.dictionary after, by rw [Dict.lookup_insert, if_pos rfl], ?_⟩
    rw [Dict.lookup_insert, if_pos rfl] at hvalue
    cases hvalue
    exact ((h.tableLines_sublist hlabels).cons_cons _).append_right _
  · have hspell : ∀ text ∈ value.strings, ∀ key,
        spelling after (.ofTable after projectName) key text =
          spelling before (.ofTable before projectName) key text :=
      fun text htext => h.spelling_eq hlabels
        (hroot text (Value.mem_strings_of_lookup hvalue htext))
    rw [Dict.lookup_insert, if_neg hkey] at hvalue
    refine ⟨value, by rw [Dict.lookup_insert, if_neg hkey, hvalue], ?_⟩
    rw [rootEntryLines_of_ne hkey, rootEntryLines_of_ne hkey, Value.lines_congr hspell]

end Enlarged

/-- What stands between line feeds.  A label may have line feeds of its own, so one line of the
layout can be several lines of the text. -/
lemma splitOn_textOf (lines : List String) :
    (textOf lines).splitOn '\n' = lines.flatMap (fun line => line.toList.splitOn '\n') ++ [[]] := by
  induction lines with
  | nil => rfl
  | cons line rest ih =>
    rw [textOf_cons, List.splitOn, List.splitOnP_append_cons _ _ (by simp)]
    rw [List.flatMap_cons, List.append_assoc, ← ih]
    rfl

end XcodeProject.Document

namespace XcodeProject.Project

open PropertyList Document

lemma enlarged_of_additions {p p' : Project} (hp : p.Loadable) (hp' : p'.Loadable)
    (h : Additions IsRegisteredList p p')
    (hids : ∀ text ∈ (Value.dictionary p.root).strings, ¬ p.objects.IsNew p'.objects text) :
    Enlarged p.objects p'.objects where
  canonical := hp.objects
  canonical_after := hp'.objects
  grown := h.extends
  unmentioned := by
    intro text htext
    have hlookup : p.root.lookup "objects" = some (.dictionary p.objects) := by
      rw [root, Dict.lookup_insert, if_pos rfl]
    exact hids text (Value.mem_strings_of_lookup hlookup htext)

/-- Whatever paths are registered, the lines of the text before are in the text afterwards, in the
same order, provided that no string of the project was the id of a new object by accident. -/
theorem registration_only_inserts_lines {text path : String} {p : Project}
    (hload : load text path = .ok p) {paths : List String}
    (hids : ∀ text ∈ (Value.dictionary p.root).strings,
      ¬ p.objects.IsNew (p.register paths).state.objects text) :
    (p.write.toList.splitOn '\n').Sublist
      ((p.register paths).state.write.toList.splitOn '\n') := by
  obtain ⟨hp, -⟩ := loadable_of_load hload
  have hedits := edits_register p paths
  have henlarged := enlarged_of_additions hp (hedits.loadable hp) (additions_register p paths) hids
  have hsorted := (Value.canonical_dictionary.mp hp.settings).1
  have hlines := henlarged.lines_sublist hsorted hids p.name
  have hwritten : (p.register paths).state.write.toList = textOf (Document.lines
      (Dict.insert p.settings "objects" (.dictionary (p.register paths).state.objects)) p.name) := by
    rw [hedits.frame]
    exact toList_write _ _
  have hbefore : p.write.toList = textOf (Document.lines p.root p.name) := toList_write _ _
  rw [hwritten, hbefore, splitOn_textOf, splitOn_textOf]
  exact (hlines.flatMap _).append_right _

theorem registration_only_inserts_lines_sample :
    load sampleProject.write sampleProject.path = .ok sampleProject ∧
    (∃ report, (sampleProject.register samplePaths).result = .ok report) ∧
    (∀ text ∈ (Value.dictionary sampleProject.root).strings,
      ¬ sampleProject.objects.IsNew (sampleProject.register samplePaths).state.objects text) ∧
    (sampleProject.write.toList.splitOn '\n').Sublist
      ((sampleProject.register samplePaths).state.write.toList.splitOn '\n') := by
  have hids : ∀ text ∈ (Value.dictionary sampleProject.root).strings,
      ¬ sampleProject.objects.IsNew (sampleProject.register samplePaths).state.objects text := by
    decide +kernel
  exact ⟨load_sampleProject, exists_report_sample, hids,
    registration_only_inserts_lines load_sampleProject hids⟩

end XcodeProject.Project
