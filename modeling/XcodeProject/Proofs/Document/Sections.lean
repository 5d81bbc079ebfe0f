import Mathlib
import XcodeProject.Document.Layout
import XcodeProject.Proofs.SortedDict

/-!
# The sections of the object table

The entries of the table are put into sections one by one, in the order of their ids, while new
sections come up in between; in the end the sections are sorted by kind.  Two descriptions of what
comes out do not mention that process.  Seen by its kind, a section is made of the entries of that
kind, in the order in which the table has them (`lookup_sections`).  Seen as a whole, the sections
hold the entries of the table, each of them once (`sections_perm`).

Both are invariants of putting one more entry into sections, and sorting changes neither, since no
two sections are of one kind (`nodup_collect`).
-/

namespace XcodeProject.Document

open PropertyList

/-! ## One more entry -/

variable {blocks : List (String × List (ObjectId × Value))}

lemma lookup_addToSection (entry : ObjectId × Value) (kind : String) :
    (addToSection entry blocks).lookup kind =
      if kind = entryKind entry.2 then some ((blocks.lookup kind).getD [] ++ [entry])
      else blocks.lookup kind := by
  fun_induction addToSection entry blocks with
  | case1 =>
    by_cases hkind : kind = entryKind entry.2
    · simp [hkind]
    · simp [List.lookup_cons, beq_eq_false_iff_ne.mpr hkind, hkind]
  | case2 block rest =>
    by_cases hkind : kind = entryKind entry.2
    · simp [hkind]
    · simp [List.lookup_cons, beq_eq_false_iff_ne.mpr hkind, hkind]
  | case3 kind' block rest hother ih =>
    rw [List.lookup_cons, List.lookup_cons, ih]
    by_cases hkind : kind = kind'
    · simp [hkind, hother]
    · simp [beq_eq_false_iff_ne.mpr hkind]

/-- There is a section of the entry's kind afterwards, and of the kinds that there were. -/
lemma mem_keys_addToSection {entry : ObjectId × Value} {kind : String} :
    kind ∈ Dict.keys (addToSection entry blocks) ↔
      kind = entryKind entry.2 ∨ kind ∈ Dict.keys blocks := by
  rw [← Dict.contains_eq_true_iff, ← Dict.contains_eq_true_iff, Dict.contains, Dict.contains,
    lookup_addToSection]
  by_cases hkind : kind = entryKind entry.2 <;> simp [hkind]

lemma nodup_addToSection (h : (Dict.keys blocks).Nodup) (entry : ObjectId × Value) :
    (Dict.keys (addToSection entry blocks)).Nodup := by
  fun_induction addToSection entry blocks with
  | case1 => exact List.nodup_singleton _
  | case2 block rest => exact h
  | case3 kind block rest hother ih =>
    obtain ⟨hkind, hrest⟩ := List.nodup_cons.mp h
    refine List.nodup_cons.mpr ⟨?_, ih hrest⟩
    intro hmem
    rcases mem_keys_addToSection.mp hmem with hsame | hmem
    · exact hother hsame
    · exact hkind hmem

/-- An entry is added to the sections exactly once, whether its section was there or not. -/
lemma addToSection_perm (entry : ObjectId × Value) :
    ((addToSection entry blocks).flatMap Prod.snd).Perm (blocks.flatMap Prod.snd ++ [entry]) := by
  fun_induction addToSection entry blocks with
  | case1 => exact .refl _
  | case2 block rest =>
    simp only [List.flatMap_cons, List.append_assoc]
    exact List.perm_append_comm.append_left _
  | case3 kind block rest hother ih =>
    simp only [List.flatMap_cons, List.append_assoc]
    exact ih.append_left _

/-! ## All entries -/

lemma collect_append_singleton (table : ObjectTable) (entry : ObjectId × Value) :
    collect (table ++ [entry]) = addToSection entry (collect table) := by
  rw [collect, List.foldl_append]
  rfl

lemma nodup_collect (table : ObjectTable) : (Dict.keys (collect table)).Nodup := by
  induction table using List.reverseRecOn with
  | nil => exact List.nodup_nil
  | append_singleton table entry ih =>
    rw [collect_append_singleton]
    exact nodup_addToSection ih entry

lemma lookup_collect (table : ObjectTable) (kind : String) :
    (collect table).lookup kind =
      if (table.filter fun entry => entryKind entry.2 = kind).isEmpty then none
      else some (table.filter fun entry => entryKind entry.2 = kind) := by
  induction table using List.reverseRecOn with
  | nil => rfl
  | append_singleton table entry ih =>
    rw [collect_append_singleton, lookup_addToSection, List.filter_append]
    by_cases hkind : kind = entryKind entry.2
    · have hblock : ((collect table).lookup kind).getD [] =
          table.filter fun entry => entryKind entry.2 = kind := by
        rw [ih]
        split
        · next hempty => rw [List.isEmpty_iff.mp hempty, Option.getD_none]
        · rfl
      rw [if_pos hkind, hblock]
      simp [hkind]
    · have hlast : [entry].filter (fun entry => entryKind entry.2 = kind) = [] := by
        simp [Ne.symm hkind]
      rw [if_neg hkind, ih, hlast, List.append_nil]

lemma collect_perm (table : ObjectTable) : ((collect table).flatMap Prod.snd).Perm table := by
  induction table using List.reverseRecOn with
  | nil => exact .nil
  | append_singleton table entry ih =>
    rw [collect_append_singleton]
    exact (addToSection_perm entry).trans (ih.append_right [entry])

/-! ## Sorting -/

lemma sections_perm_collect (table : ObjectTable) : (sections table).Perm (collect table) :=
  List.mergeSort_perm _ _

lemma nodup_sections (table : ObjectTable) : (Dict.keys (sections table)).Nodup :=
  ((sections_perm_collect table).map Prod.fst).nodup_iff.mpr (nodup_collect table)

/-- Sections come in the order of their kinds, and no two are of one kind. -/
lemma sorted_sections (table : ObjectTable) : Dict.Sorted (sections table) := by
  have hle : (Dict.keys (sections table)).Pairwise (· ≤ ·) := by
    refine List.pairwise_map.mpr (List.Pairwise.imp of_decide_eq_true
      (List.pairwise_mergeSort ?_ ?_ (collect table)))
    · intro a b c hab hbc
      exact decide_eq_true (String.le_trans (of_decide_eq_true hab) (of_decide_eq_true hbc))
    · intro a b
      rw [Bool.or_eq_true, decide_eq_true_iff, decide_eq_true_iff]
      exact String.le_total a.1 b.1
  refine (hle.and (nodup_sections table)).imp ?_
  rintro kind kind' ⟨hle, hne⟩
  exact lt_of_le_of_ne hle hne

/-- The section of a kind is made of the entries of that kind, and there is none if there are no
such entries. -/
lemma lookup_sections (table : ObjectTable) (kind : String) :
    (sections table).lookup kind =
      if (table.filter fun entry => entryKind entry.2 = kind).isEmpty then none
      else some (table.filter fun entry => entryKind entry.2 = kind) := by
  rw [← lookup_collect]
  refine Option.ext fun block => ?_
  rw [Dict.lookup_eq_some_iff_mem (nodup_sections table),
    Dict.lookup_eq_some_iff_mem (nodup_collect table), (sections_perm_collect table).mem_iff]

/-- There is a section for the kind of each entry and for no other kind, and it has all entries of
the kind. -/
lemma mem_sections {table : ObjectTable} {kind : String} {block : List (ObjectId × Value)} :
    (kind, block) ∈ sections table ↔ (∃ entry ∈ table, entryKind entry.2 = kind) ∧
      block = table.filter fun entry => entryKind entry.2 = kind := by
  have hempty : (table.filter fun entry => entryKind entry.2 = kind).isEmpty = true ↔
      ¬ ∃ entry ∈ table, entryKind entry.2 = kind := by
    simp [List.isEmpty_iff]
  rw [← Dict.lookup_eq_some_iff_mem (nodup_sections table), lookup_sections]
  split
  · next hnone => simp [hempty.mp hnone]
  · next hsome =>
    have hentry := not_not.mp (mt hempty.mpr hsome)
    rw [Option.some.injEq, eq_comm, and_iff_right hentry]

/-- The sections hold the entries of the table, each of them once. -/
theorem sections_perm (table : ObjectTable) : ((sections table).flatMap Prod.snd).Perm table :=
  ((sections_perm_collect table).flatMap_right Prod.snd).trans (collect_perm table)

end XcodeProject.Document
