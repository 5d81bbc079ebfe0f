import Mathlib
import XcodeProject.Proofs.Document.Sections
import XcodeProject.Proofs.PropertyList.ReaderComplete
import XcodeProject.Proofs.PropertyList.WrittenText

/-!
# The text of a project reads back as its root dictionary

Three things are in the text of a project that are not in its root dictionary: the header line, the
lines around the sections of the object table, and the labels after ids.  All of them are comments,
so a reader passes over them, provided that what they are made of does not end them early.  A label
cannot, since it is masked (`not_commentEnd_maskCommentEnd`).  A kind is written into the lines
around its section as it is, and that is the one condition there is (`KindsStayInComments`).

The object table is written kind by kind and not in the order of its ids.  The sections hold the
entries of the table and nothing else (`sections_perm`), and the order in which the entries of a
dictionary are read does not matter.
-/

namespace XcodeProject.Document

open PropertyList

/-- No kind in the table has the end of a comment in it. -/
def KindsStayInComments (table : ObjectTable) : Prop :=
  ∀ id kind, ObjectTable.kind? table id = some kind → ¬ commentEnd <:+: kind.toList

lemma kindsStayInComments_iff (table : ObjectTable) :
    KindsStayInComments table ↔
      ∀ id ∈ table.keys, ∀ kind ∈ table.kind? id, ¬ commentEnd <:+: kind.toList := by
  constructor
  · intro h id _ kind hkind
    exact h id kind hkind
  · intro h id kind hkind
    refine h id ?_ kind hkind
    rw [← Dict.contains_eq_true_iff, Dict.contains]
    by_contra hnone
    simp [ObjectTable.kind?, ObjectTable.object?, Option.not_isSome_iff_eq_none.mp hnone] at hkind

instance (table : ObjectTable) : Decidable (KindsStayInComments table) :=
  decidable_of_iff' _ (kindsStayInComments_iff table)

/-! ## Comments -/

/-- The end of a comment in two texts laid end to end is in one of them or across. -/
lemma commentEnd_infix_append {text more : List Char} (h : commentEnd <:+: text ++ more) :
    commentEnd <:+: text ∨ commentEnd <:+: more ∨
      (text.getLast? = some '*' ∧ more.head? = some '/') := by
  induction text with
  | nil => exact .inr (.inl h)
  | cons c text ih =>
    rw [List.cons_append] at h
    rcases List.infix_cons_iff.mp h with hahead | hinside
    · simp only [commentEnd, List.cons_prefix_cons] at hahead
      obtain ⟨rfl, hnext⟩ := hahead
      cases text with
      | nil =>
        obtain ⟨rest, rfl⟩ := hnext
        exact .inr (.inr ⟨rfl, rfl⟩)
      | cons d text =>
        simp only [List.cons_append, List.cons_prefix_cons, List.nil_prefix, and_true] at hnext
        subst hnext
        exact .inl ⟨[], text, rfl⟩
    · rcases ih hinside with htext | hmore | ⟨hlast, hhead⟩
      · exact .inl (htext.trans (List.suffix_cons c text).isInfix)
      · exact .inr (.inl hmore)
      · refine .inr (.inr ⟨?_, hhead⟩)
        rw [List.getLast?_cons, hlast]
        rfl

/-- A text between two others that neither have the end of a comment nor complete one with it. -/
lemma not_commentEnd_between {before text after : List Char} (hbefore : ¬ commentEnd <:+: before)
    (hlast : before.getLast? ≠ some '*') (htext : ¬ commentEnd <:+: text)
    (hafter : ¬ commentEnd <:+: after) (hhead : after.head? ≠ some '/') :
    ¬ commentEnd <:+: before ++ text ++ after := by
  intro h
  rcases commentEnd_infix_append h with h | h | h
  · rcases commentEnd_infix_append h with h | h | h
    · exact hbefore h
    · exact htext h
    · exact hlast h.1
  · exact hafter h
  · exact hhead h.2

lemma head?_maskCommentEnd {text : List Char} (h : (maskCommentEnd text).head? = some '/') :
    text.head? = some '/' := by
  fun_cases maskCommentEnd text with
  | case1 rest => simp [maskCommentEnd] at h
  | case2 c rest hne =>
    rw [maskCommentEnd.eq_2 c rest hne] at h
    exact h
  | case3 => simp [maskCommentEnd] at h

lemma not_commentEnd_maskCommentEnd (text : List Char) :
    ¬ commentEnd <:+: maskCommentEnd text := by
  fun_induction maskCommentEnd text with
  | case1 rest ih =>
    have hmask : ¬ commentEnd <:+: ['(', '*', ')', '/'] := by decide
    intro h
    have hsplit : commentEnd <:+: ['(', '*', ')', '/'] ++ maskCommentEnd rest := h
    rcases commentEnd_infix_append hsplit with h | h | ⟨hlast, -⟩
    · exact hmask h
    · exact ih h
    · exact absurd hlast (by decide)
  | case2 c rest hne ih =>
    intro h
    rcases List.infix_cons_iff.mp h with hahead | hinside
    · -- A slash after the masked text's star would have been there before masking.
      simp only [commentEnd, List.cons_prefix_cons] at hahead
      obtain ⟨rfl, more, hmore⟩ := hahead
      have hmasked : (maskCommentEnd rest).head? = some '/' := by
        rw [← hmore]
        rfl
      obtain ⟨more, rfl⟩ := List.head?_eq_some_iff.mp (head?_maskCommentEnd hmasked)
      exact hne more rfl rfl
    · exact ih hinside
  | case3 => simp [commentEnd]

/-- A comment is passed over together with the blanks in front of it. -/
lemma trivia_comment {body : List Char} (hbody : ¬ commentEnd <:+: body) {text rest : List Char}
    (h : Trivia text rest) :
    Trivia ("/* ".toList ++ body ++ " */".toList ++ text) rest := by
  have hpadded : ¬ commentEnd <:+: [' '] ++ body ++ [' '] :=
    not_commentEnd_between (by decide) (by decide) hbody (by decide) (by decide)
  have hblock := Trivia.block hpadded h
  simpa using hblock

/-! ## Ids and their labels -/

lemma spells_reference (labels : Labels) (id : ObjectId) :
    Spells (reference labels id).toList id := by
  unfold reference
  cases labels.lookup id with
  | none => exact spells_quote id
  | some label =>
    intro rest _
    have hcomment := trivia_comment (not_commentEnd_maskCommentEnd label.toList) (.none rest)
    have hspace : Text.isWhiteSpace ' ' = true := by decide
    have hblank : (isBare ' ' || ' ' == '*') = false := by decide
    have hid := stringText_quote id (delimited_cons hblank
      ("/* ".toList ++ maskCommentEnd label.toList ++ " */".toList ++ rest))
    refine ⟨_, ?_, .space hspace hcomment⟩
    simpa using hid

lemma faithful_spelling (table : ObjectTable) (labels : Labels) :
    Faithful (spelling table labels) := by
  intro key content
  unfold spelling
  split
  · exact spells_reference labels content
  · exact spells_quote content

/-! ## The object table -/

lemma KindsStayInComments.entryKind {table : ObjectTable} (hkinds : KindsStayInComments table)
    (hsorted : Dict.Sorted table) {entry : ObjectId × Value} (hmem : entry ∈ table) :
    ¬ commentEnd <:+: (entryKind entry.2).toList := by
  obtain ⟨id, value⟩ := entry
  have hlookup := (Dict.lookup_eq_some_iff_mem hsorted.nodup id value).mpr hmem
  cases value with
  | string content =>
    show ¬ commentEnd <:+: "".toList
    decide
  | array items =>
    show ¬ commentEnd <:+: "".toList
    decide
  | dictionary object =>
    show ¬ commentEnd <:+: ((Object.text? object "isa").getD "").toList
    cases hisa : Object.text? object "isa" with
    | none => decide
    | some kind =>
      refine hkinds id kind ?_
      rw [ObjectTable.kind?, ObjectTable.object?, hlookup]
      exact hisa

lemma isEntryText_entryLines {spell : Spelling} (hspell : Faithful spell) (labels : Labels)
    {entry : ObjectId × Value} (hcanonical : entry.2.Canonical) :
    IsEntryText (textOf (entryLines spell labels entry)) entry := by
  unfold entryLines
  simp only
  split
  · have hbody := Value.denotes_inline hspell hcanonical none
    have hentry := isEntryText_of_denotes (blank_tabs 2) (spells_reference labels entry.1) hbody
      blank_newline
    simpa using hentry
  · obtain ⟨body, hbody, htext⟩ := Value.exists_denotes_lines hspell hcanonical 2
      (tabs 2 ++ reference labels entry.1 ++ " = ") ";" none
    rw [htext]
    exact Value.isEntryText_lines 2 (by simp) (spells_reference labels entry.1) hbody

/-- The lines of a section put its entries in front of those that follow. -/
lemma entriesText_sectionLines {spell : Spelling} (hspell : Faithful spell) (labels : Labels)
    {block : String × List (ObjectId × Value)}
    (hcanonical : ∀ entry ∈ block.2, entry.2.Canonical)
    (hkind : ¬ commentEnd <:+: block.1.toList) {more rest : List Char}
    {entries : List (String × Value)} (hmore : EntriesText more entries rest) :
    EntriesText (textOf (sectionLines spell labels block) ++ more) (block.2 ++ entries) rest := by
  have hbegin : ¬ commentEnd <:+: "Begin ".toList ++ block.1.toList ++ " section".toList :=
    not_commentEnd_between (by decide) (by decide) hkind (by decide) (by decide)
  have hend : ¬ commentEnd <:+: "End ".toList ++ block.1.toList ++ " section".toList :=
    not_commentEnd_between (by decide) (by decide) hkind (by decide) (by decide)
  have hafter := hmore.skip (trivia_comment hend (.blank blank_newline (.none more)))
  have hentries := entriesText_flatMap
    (fun entry hmem => isEntryText_entryLines hspell labels (hcanonical entry hmem)) hafter
  have hbefore := hentries.skip (.blank blank_newline
    (trivia_comment hbegin (.blank blank_newline (.none _))))
  simpa [sectionLines, textOf_flatMap] using hbefore

lemma entriesText_tableLines {spell : Spelling} (hspell : Faithful spell) (labels : Labels)
    {blocks : List (String × List (ObjectId × Value))}
    (hcanonical : ∀ block ∈ blocks, ∀ entry ∈ block.2, entry.2.Canonical)
    (hkinds : ∀ block ∈ blocks, ¬ commentEnd <:+: block.1.toList) {more rest : List Char}
    {entries : List (String × Value)} (hmore : EntriesText more entries rest) :
    EntriesText (textOf (blocks.flatMap (sectionLines spell labels)) ++ more)
      (blocks.flatMap Prod.snd ++ entries) rest := by
  induction blocks with
  | nil => exact hmore
  | cons block blocks ih =>
    obtain ⟨hblock, hblocks⟩ := List.forall_mem_cons.mp hcanonical
    obtain ⟨hkind, hkinds⟩ := List.forall_mem_cons.mp hkinds
    have hrest := entriesText_sectionLines hspell labels hblock hkind (ih hblocks hkinds)
    simpa using hrest

/-- The object table between its braces. -/
lemma denotes_table {table : ObjectTable} (hcanonical : (Value.dictionary table).Canonical)
    (hkinds : KindsStayInComments table) (labels : Labels) :
    Denotes ('{' :: '\n' :: (textOf (tableLines table labels) ++ (tabs 1).toList ++ ['}']))
      (.dictionary table) := by
  rw [Value.canonical_dictionary] at hcanonical
  have hblocks : ∀ block ∈ sections table, ∀ entry ∈ block.2, entry.2.Canonical := by
    intro block hblock entry hentry
    have hmem : entry ∈ (sections table).flatMap Prod.snd :=
      List.mem_flatMap.mpr ⟨block, hblock, hentry⟩
    exact hcanonical.2 entry ((sections_perm table).mem_iff.mp hmem)
  have hsafe : ∀ block ∈ sections table, ¬ commentEnd <:+: block.1.toList := by
    intro block hblock
    obtain ⟨entry, hmem, hkind⟩ := (mem_sections.mp hblock).1
    rw [← hkind]
    exact hkinds.entryKind hcanonical.1 hmem
  intro rest _
  have hclose : EntriesText ((tabs 1).toList ++ '}' :: rest) [] rest :=
    .close (.blank (blank_tabs 1) (.none _))
  have htable := entriesText_tableLines (faithful_spelling table labels) labels hblocks hsafe hclose
  rw [List.append_nil] at htable
  have hdictionary := ValueText.dictionary (htable.skip (.blank blank_newline (.none _)))
  rw [Dict.ofEntries_eq_of_perm hcanonical.1 (sections_perm table)] at hdictionary
  refine ⟨rest, ?_, .none rest⟩
  simpa [tableLines] using hdictionary

/-! ## The whole text -/

lemma isEntryText_rootEntryLines {table : ObjectTable} (hkinds : KindsStayInComments table)
    (labels : Labels) {entry : String × Value} (hcanonical : entry.2.Canonical)
    (htable : ∀ objects, entry = ("objects", .dictionary objects) → objects = table) :
    IsEntryText (textOf (rootEntryLines table labels entry)) entry := by
  fun_cases rootEntryLines table labels entry with
  | case1 objects head =>
    obtain rfl := htable objects rfl
    have hentry := isEntryText_of_denotes (blank_tabs 1) (spells_quote "objects")
      (denotes_table hcanonical hkinds labels) blank_newline
    simpa [head] using hentry
  | case2 key value hkey head =>
    obtain ⟨body, hbody, htext⟩ := Value.exists_denotes_lines (faithful_spelling table labels)
      hcanonical 1 head ";" (some key)
    rw [htext]
    exact Value.isEntryText_lines 1 (by simp [head]) (spells_quote key) hbody

lemma toList_write (root : Dict Value) (projectName : Option String) :
    (write root projectName).toList = textOf (lines root projectName) := by
  unfold write
  induction lines root projectName with
  | nil => rfl
  | cons line rest ih => simp [String.join_cons, ih]

/-- The object table is what the root dictionary has under `objects`. -/
lemma tableOf_eq {root : Dict Value} (hsorted : root.Sorted) {objects : ObjectTable}
    (hmem : ("objects", Value.dictionary objects) ∈ root) : tableOf root = objects := by
  have hlookup := (Dict.lookup_eq_some_iff_mem hsorted.nodup "objects" _).mpr hmem
  simp [tableOf, hlookup, Value.dictionary?]

theorem documentText_write {root : Dict Value} (hroot : (Value.dictionary root).Canonical)
    (hkinds : KindsStayInComments (tableOf root)) (projectName : Option String) :
    DocumentText (write root projectName).toList (.dictionary root) := by
  rw [Value.canonical_dictionary] at hroot
  have hentries : ∀ entry ∈ root, IsEntryText
      (textOf (rootEntryLines (tableOf root) (.ofTable (tableOf root) projectName) entry))
      entry := by
    intro entry hmem
    refine isEntryText_rootEntryLines hkinds _ (hroot.2 entry hmem) ?_
    rintro objects rfl
    exact (tableOf_eq hroot.1 hmem).symm
  have hclose : EntriesText ['}', '\n'] [] ['\n'] := .close (.none _)
  have hall := entriesText_flatMap hentries hclose
  rw [List.append_nil] at hall
  have hbody := ValueText.dictionary (hall.skip (.blank blank_newline (.none _)))
  rw [Dict.ofEntries_eq_of_perm hroot.1 (.refl root)] at hbody
  have hheader : '\n' ∉ " !$*UTF8*$!".toList := by decide
  refine ⟨_, _, ?_, hbody, .blank blank_newline (.none [])⟩
  have hstart := Trivia.line hheader (.none ('{' :: '\n' :: (root.flatMap fun entry =>
    textOf (rootEntryLines (tableOf root) (.ofTable (tableOf root) projectName) entry)) ++
      ['}', '\n']))
  rw [toList_write]
  simpa [lines, header, textOf_flatMap] using hstart

/-- What is written is read back. -/
theorem parse_write {root : Dict Value} (hroot : (Value.dictionary root).Canonical)
    (hkinds : KindsStayInComments (tableOf root)) (projectName : Option String) :
    parse (write root projectName) = .ok (.dictionary root) := by
  have hdocument := documentText_write hroot hkinds projectName
  have hmark : dropByteOrderMark (write root projectName).toList =
      (write root projectName).toList := by
    rw [toList_write]
    rfl
  apply parse_of_documentText
  rw [hmark]
  exact hdocument

/-- Reading undoes writing, so what is read back is written as it was. -/
theorem reading_undoes_writing {root : Dict Value} (hroot : (Value.dictionary root).Canonical)
    (hkinds : KindsStayInComments (tableOf root)) (projectName : Option String) :
    parse (write root projectName) = .ok (.dictionary root) ∧
      ∀ again, parse (write root projectName) = .ok (.dictionary again) →
        write again projectName = write root projectName := by
  have hparse := parse_write hroot hkinds projectName
  refine ⟨hparse, ?_⟩
  intro again hagain
  rw [hparse] at hagain
  cases hagain
  rfl

/-- A root whose object table has a name with the end of a comment in it, an entry that is not an
object, and strings that need quotes. -/
def awkwardRoot : Dict Value :=
  [("classes", .dictionary []),
    ("objects", .dictionary
      [("A//", .dictionary [("isa", .string Kind.fileReference), ("name", .string "*/ = \"é\";")]),
        ("B", .array [.string "", .string "A//"]),
        ("C", .dictionary [("children", .array [.string "A//"]), ("isa", .string Kind.group),
          ("path", .string "/*\n")])]),
    ("rootObject", .string "C")]

theorem reading_undoes_writing_awkwardRoot :
    (Value.dictionary awkwardRoot).Canonical ∧ KindsStayInComments (tableOf awkwardRoot) ∧
      parse (write awkwardRoot (some "*/")) = .ok (.dictionary awkwardRoot) := by
  have hroot : (Value.dictionary awkwardRoot).Canonical := by decide
  have hkinds : KindsStayInComments (tableOf awkwardRoot) := by decide
  exact ⟨hroot, hkinds, (reading_undoes_writing hroot hkinds (some "*/")).1⟩

end XcodeProject.Document
