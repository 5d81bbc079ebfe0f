import Mathlib
import XcodeProject.Proofs.Document.RoundTrip

/-!
# How the object table is laid out

The table is written section after section by kind, and inside a section by id, which is the order
`KindThenId` on all entries.  `IsLayout` says this of the blocks in which the entries are written,
and there is only one way to do it (`IsLayout.eq_sections`).

What is written for a block is a line with its kind, then for each entry lines that state this entry
and nothing else (`States`), then another line with the kind.  The lines around a block need not be
comments: a kind may have the end of a comment in it.  The lines of an entry are not affected by
that.
-/

namespace XcodeProject.Document

open PropertyList

/-! ## The order of the entries -/

/-- An entry comes before those of later kinds, and before those of its own kind with later ids. -/
def KindThenId (a b : ObjectId × Value) : Prop :=
  entryKind a.2 < entryKind b.2 ∨ entryKind a.2 = entryKind b.2 ∧ a.1 < b.1

/-- The blocks of a table: its entries by kind and id, one block for each kind. -/
structure IsLayout (table : ObjectTable) (blocks : List (String × List (ObjectId × Value))) :
    Prop where
  /-- Blocks stand in the order of their kinds, and no two are of one kind. -/
  increasing : (blocks.map Prod.fst).Pairwise (· < ·)
  /-- There are blocks of the kinds of the entries and of no other kinds. -/
  kinds : ∀ kind, kind ∈ blocks.map Prod.fst ↔ ∃ entry ∈ table, entryKind entry.2 = kind
  /-- Every entry is in the block of its kind. -/
  own : ∀ block ∈ blocks, ∀ entry ∈ block.2, entryKind entry.2 = block.1
  /-- The blocks hold the entries of the table, each of them once. -/
  complete : (blocks.flatMap Prod.snd).Perm table
  /-- Entries stand in the order of kinds and then of ids, through all blocks. -/
  sorted : (blocks.flatMap Prod.snd).Pairwise KindThenId

lemma entryKind_of_mem_sections {table : ObjectTable} :
    ∀ block ∈ sections table, ∀ entry ∈ block.2, entryKind entry.2 = block.1 := by
  rintro ⟨kind, block⟩ hblock entry hentry
  obtain ⟨-, rfl⟩ := mem_sections.mp hblock
  simpa using (List.mem_filter.mp hentry).2

lemma pairwise_sections {table : ObjectTable} (hsorted : Dict.Sorted table) :
    ((sections table).flatMap Prod.snd).Pairwise KindThenId := by
  have hids : table.Pairwise fun a b => a.1 < b.1 := List.pairwise_map.mp hsorted
  have hkinds : (sections table).Pairwise fun a b => a.1 < b.1 :=
    List.pairwise_map.mp (sorted_sections table)
  rw [List.pairwise_flatMap]
  constructor
  · rintro ⟨kind, block⟩ hblock
    -- Inside a section all entries are of one kind and in the order of the table.
    have hinside : block.Pairwise fun a b => a.1 < b.1 := by
      obtain ⟨-, rfl⟩ := mem_sections.mp hblock
      exact hids.filter _
    refine hinside.imp_of_mem ?_
    intro a b ha hb hlt
    have hkind := entryKind_of_mem_sections _ hblock
    exact .inr ⟨(hkind a ha).trans (hkind b hb).symm, hlt⟩
  · refine hkinds.imp_of_mem ?_
    intro block block' hblock hblock' hlt a ha b hb
    left
    rwa [entryKind_of_mem_sections block hblock a ha,
      entryKind_of_mem_sections block' hblock' b hb]

lemma isLayout_sections {table : ObjectTable} (hsorted : Dict.Sorted table) :
    IsLayout table (sections table) where
  increasing := sorted_sections table
  kinds kind := by
    rw [List.mem_map]
    constructor
    · rintro ⟨⟨kind, block⟩, hblock, rfl⟩
      exact (mem_sections.mp hblock).1
    · intro hentry
      exact ⟨(kind, _), mem_sections.mpr ⟨hentry, rfl⟩, rfl⟩
  own := entryKind_of_mem_sections
  complete := sections_perm table
  sorted := pairwise_sections hsorted

/-- A block has all entries of its kind, in the order of the table. -/
lemma IsLayout.eq_filter {table : ObjectTable} {blocks : List (String × List (ObjectId × Value))}
    (h : IsLayout table blocks) (hsorted : Dict.Sorted table) {kind : String}
    {block : List (ObjectId × Value)} (hblock : (kind, block) ∈ blocks) :
    block = table.filter fun entry => entryKind entry.2 = kind := by
  have hinside : Dict.Sorted block := by
    refine List.pairwise_map.mpr (((List.pairwise_flatMap.mp h.sorted).1 _ hblock).imp_of_mem ?_)
    intro a b ha hb hab
    have hsame : entryKind a.2 = entryKind b.2 :=
      (h.own _ hblock a ha).trans (h.own _ hblock b hb).symm
    rcases hab with hlt | ⟨-, hlt⟩
    · exact absurd hsame (ne_of_lt hlt)
    · exact hlt
  have hfilter : Dict.Sorted (table.filter fun entry => entryKind entry.2 = kind) :=
    List.Pairwise.sublist (List.Sublist.map Prod.fst List.filter_sublist) hsorted
  refine hinside.eq_of_mem_iff hfilter ?_
  intro entry
  rw [List.mem_filter, decide_eq_true_iff]
  constructor
  · intro hentry
    have hmem : entry ∈ blocks.flatMap Prod.snd := List.mem_flatMap.mpr ⟨_, hblock, hentry⟩
    exact ⟨h.complete.mem_iff.mp hmem, h.own _ hblock entry hentry⟩
  · rintro ⟨hentry, hkind⟩
    obtain ⟨⟨kind', block'⟩, hblock', hmem⟩ := List.mem_flatMap.mp (h.complete.mem_iff.mpr hentry)
    -- No two blocks are of one kind, so the entry is in this one.
    obtain rfl : kind = kind' := hkind.symm.trans (h.own _ hblock' entry hmem)
    have hnodup : (Dict.keys blocks).Nodup := Dict.Sorted.nodup h.increasing
    have hlookup := (Dict.lookup_eq_some_iff_mem hnodup kind block).mpr hblock
    have hlookup' := (Dict.lookup_eq_some_iff_mem hnodup kind block').mpr hblock'
    rw [hlookup, Option.some.injEq] at hlookup'
    exact hlookup' ▸ hmem

/-- A table has one layout. -/
lemma IsLayout.eq_sections {table : ObjectTable} {blocks : List (String × List (ObjectId × Value))}
    (h : IsLayout table blocks) (hsorted : Dict.Sorted table) : blocks = sections table := by
  have hblocks : Dict.Sorted blocks := h.increasing
  refine hblocks.eq_of_mem_iff (sorted_sections table) ?_
  rintro ⟨kind, block⟩
  rw [mem_sections, ← h.kinds]
  constructor
  · intro hblock
    exact ⟨List.mem_map.mpr ⟨_, hblock, rfl⟩, h.eq_filter hsorted hblock⟩
  · rintro ⟨hkind, rfl⟩
    obtain ⟨⟨kind, block⟩, hblock, rfl⟩ := List.mem_map.mp hkind
    rwa [← h.eq_filter hsorted hblock]

/-! ## The lines -/

/-- Lines that state one entry of a dictionary: they put it in front of other entries, and alone
between braces they are read as the dictionary of this entry. -/
structure States (entry : ObjectId × Value) (lines : List String) : Prop where
  /-- The lines can stand in front of other entries. -/
  inFront : IsEntryText (textOf lines) entry
  /-- Alone, the lines are a dictionary with the entry and no other. -/
  alone : parse (String.ofList ('{' :: (textOf lines ++ ['}']))) = .ok (.dictionary [entry])

lemma states_of_isEntryText {entry : ObjectId × Value} {lines : List String}
    (h : IsEntryText (textOf lines) entry) : States entry lines where
  inFront := h
  alone := by
    have hclose : EntriesText ['}'] [] [] := .close (.none _)
    have hvalue := ValueText.dictionary (h hclose)
    have hsorted : Dict.Sorted [entry] := List.pairwise_singleton _ entry.1
    rw [Dict.ofEntries_eq_of_perm hsorted (.refl [entry])] at hvalue
    have hdocument : DocumentText ('{' :: (textOf lines ++ ['}'])) (.dictionary [entry]) :=
      ⟨_, _, .none _, hvalue, .none []⟩
    apply parse_of_documentText
    rw [String.toList_ofList]
    exact hdocument

/-- The lines of a block: its entries, each in lines of its own, between two lines with the kind. -/
def IsBlockText (block : String × List (ObjectId × Value)) (lines : List String) : Prop :=
  ∃ pieces, List.Forall₂ States block.2 pieces ∧
    lines = ["", "/* Begin " ++ block.1 ++ " section */"] ++ pieces.flatten ++
      ["/* End " ++ block.1 ++ " section */"]

lemma isBlockText_sectionLines {spell : Spelling} (hspell : Faithful spell) (labels : Labels)
    {block : String × List (ObjectId × Value)}
    (hcanonical : ∀ entry ∈ block.2, entry.2.Canonical) :
    IsBlockText block (sectionLines spell labels block) := by
  refine ⟨block.2.map (entryLines spell labels), ?_, ?_⟩
  · rw [List.forall₂_map_right_iff, List.forall₂_same]
    intro entry hentry
    exact states_of_isEntryText
      (isEntryText_entryLines hspell labels (hcanonical entry hentry))
  · rw [sectionLines, List.flatMap_def]

/-- The object table is written in the blocks of its only layout, each between two lines that name
its kind, and each entry of a block in lines that state this entry. -/
theorem table_is_laid_out_by_kind_then_id {table : ObjectTable}
    (hcanonical : (Value.dictionary table).Canonical) (labels : Labels) :
    ∃ blocks, IsLayout table blocks ∧ (∀ other, IsLayout table other → other = blocks) ∧
      ∃ texts, List.Forall₂ IsBlockText blocks texts ∧ tableLines table labels = texts.flatten := by
  obtain ⟨hsorted, hvalues⟩ := Value.canonical_dictionary.mp hcanonical
  refine ⟨sections table, isLayout_sections hsorted, fun other hother =>
    hother.eq_sections hsorted, (sections table).map (sectionLines (spelling table labels) labels),
    ?_, ?_⟩
  · rw [List.forall₂_map_right_iff, List.forall₂_same]
    intro block hblock
    refine isBlockText_sectionLines (faithful_spelling table labels) labels ?_
    intro entry hentry
    have hmem : entry ∈ (sections table).flatMap Prod.snd :=
      List.mem_flatMap.mpr ⟨block, hblock, hentry⟩
    exact hvalues entry ((sections_perm table).mem_iff.mp hmem)
  · rw [tableLines, List.flatMap_def]

/-- Kinds that do not come in the order of ids, one with the end of a comment in it, and entries
without a kind. -/
def scatteredTable : ObjectTable :=
  [("1", .dictionary [("isa", .string "Z")]), ("2", .dictionary [("isa", .string "*/")]),
    ("3", .string "Z"), ("4", .dictionary [("isa", .string "Z")]),
    ("5", .dictionary [("isa", .array [])])]

theorem table_is_laid_out_by_kind_then_id_scattered :
    (Value.dictionary scatteredTable).Canonical ∧ ∃ blocks, IsLayout scatteredTable blocks ∧
      (∀ other, IsLayout scatteredTable other → other = blocks) ∧
      ∃ texts, List.Forall₂ IsBlockText blocks texts ∧
        tableLines scatteredTable [] = texts.flatten := by
  have hcanonical : (Value.dictionary scatteredTable).Canonical := by decide
  exact ⟨hcanonical, table_is_laid_out_by_kind_then_id hcanonical []⟩

end XcodeProject.Document
