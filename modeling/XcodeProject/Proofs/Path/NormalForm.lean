import Mathlib
import XcodeProject.Path

/-!
# Splitting a path gives its normal form

Which file a path leads to depends on its names only.  This module makes that exact in three steps.

First, names are what stands between slashes, less what does not count, and they are read from the
parts of a path that is put together (`names_append`, `names_join`).  So names that are joined are
read back (`names_join_of_isName`): the directories and the file name of a path, joined, are a path
that splits in the same way.

Second, the file name and the parent of a path are found each for itself, and they agree on where
the last name is: the names of the parent are the names of the path without the file name
(`exists_parent?`).  So splitting takes the last name off the names (`split_eq_ofNames?`).

Third, two paths have the same names exactly if they are `Alike`: one can be rewritten into the
other by taking out or putting in slashes that are repeated, at the front or at the end, and
components `.`.  One direction is that no such step changes the names; the other is that these steps
lead from every path to its names, joined.
-/

namespace XcodeProject.Path

/-- What stands between the slashes of a path, and before the first and after the last one. -/
def components (path : String) : List String :=
  (path.toList.splitOn '/').map String.ofList

/-- The components that count. -/
def counts (component : String) : Bool :=
  component ≠ "" && component ≠ "."

/-- A component that counts and is one component. -/
def IsName (name : String) : Prop :=
  name ≠ "" ∧ name ≠ "." ∧ '/' ∉ name.toList

/-! ## Joining -/

lemma join_singleton (part : String) : join [part] = part :=
  String.intercalate_singleton

lemma join_cons (part : String) {rest : List String} (hrest : rest ≠ []) :
    join (part :: rest) = part ++ "/" ++ join rest :=
  String.intercalate_cons_of_ne_nil hrest

lemma join_append {before after : List String} (hbefore : before ≠ []) (hafter : after ≠ []) :
    join (before ++ after) = join before ++ "/" ++ join after :=
  String.intercalate_append_of_ne_nil hbefore hafter

lemma two_slashes (before after : String) :
    before ++ "//" ++ after = before ++ "/" ++ ("" ++ "/" ++ after) := by
  simp [← String.toList_inj]

lemma join_components (path : String) : join (components path) = path := by
  rw [← String.toList_inj, join, components, String.toList_intercalate]
  simp [Function.comp_def, List.intercalate_splitOn]

/-! ## Names and components -/

lemma cut_eq_splitOnPPrepend (piece text : List Char) :
    cut piece text = text.splitOnPPrepend (· == '/') piece := by
  induction text generalizing piece with
  | nil => rfl
  | cons c rest ih =>
    rw [cut, List.splitOnPPrepend_cons_eq_if]
    simp only [beq_iff_eq]
    rw [ih, ih, List.splitOnPPrepend_nil_right]

lemma pieces_eq (path : String) : pieces path = components path := by
  rw [pieces, cut_eq_splitOnPPrepend, List.splitOnPPrepend_nil_right]
  rfl

lemma names_eq (path : String) : names path = (components path).filter counts := by
  rw [names, pieces_eq]
  rfl

lemma components_append (before after : String) :
    components (before ++ "/" ++ after) = components before ++ components after := by
  have hslash : (before ++ "/" ++ after).toList = before.toList ++ '/' :: after.toList := by
    simp
  rw [components, hslash, List.splitOn_append_cons_self, List.map_append]
  rfl

lemma names_append (before after : String) :
    names (before ++ "/" ++ after) = names before ++ names after := by
  rw [names_eq, components_append, List.filter_append, ← names_eq, ← names_eq]

lemma names_empty : names "" = [] := by
  decide

lemma names_dot : names "." = [] := by
  decide

lemma names_join (parts : List String) : names (join parts) = parts.flatMap names := by
  induction parts with
  | nil => exact names_empty
  | cons part rest ih =>
    rcases eq_or_ne rest [] with rfl | hrest
    · rw [join_singleton, List.flatMap_singleton]
    · rw [join_cons part hrest, names_append, ih, List.flatMap_cons]

lemma slash_notMem_of_mem_splitOn {text piece : List Char} (h : piece ∈ text.splitOn '/') :
    '/' ∉ piece := by
  induction text generalizing piece with
  | nil =>
    rw [List.splitOn_nil, List.mem_singleton] at h
    simp [h]
  | cons c rest ih =>
    rw [List.splitOn_cons_eq_if_modifyHead] at h
    split at h
    · rcases List.mem_cons.mp h with rfl | h
      · exact List.not_mem_nil
      · exact ih h
    · next hc =>
      obtain ⟨first, more, hsplit⟩ := List.exists_cons_of_ne_nil (List.splitOn_ne_nil '/' rest)
      rw [hsplit] at ih h
      rcases List.mem_cons.mp h with rfl | h
      · have hne : '/' ≠ c := by
          rintro rfl
          exact hc (beq_self_eq_true _)
        exact List.not_mem_cons_of_ne_of_not_mem hne (ih List.mem_cons_self)
      · exact ih (List.mem_cons_of_mem _ h)

lemma slash_notMem_of_mem_components {path component : String} (h : component ∈ components path) :
    '/' ∉ component.toList := by
  obtain ⟨piece, hpiece, rfl⟩ := List.mem_map.mp h
  rw [String.toList_ofList]
  exact slash_notMem_of_mem_splitOn hpiece

lemma isName_of_mem_names {path name : String} (h : name ∈ names path) : IsName name := by
  rw [names_eq, List.mem_filter] at h
  have hcounts : name ≠ "" ∧ name ≠ "." := by simpa [counts] using h.2
  exact ⟨hcounts.1, hcounts.2, slash_notMem_of_mem_components h.1⟩

/-- Of components that are joined, those are read back that count. -/
lemma names_join_of_notMem {parts : List String} (h : ∀ part ∈ parts, '/' ∉ part.toList) :
    names (join parts) = parts.filter counts := by
  have hnames : ∀ part ∈ parts, names part = [part].filter counts := by
    intro part hpart
    rw [names_eq, components, List.splitOn_eq_singleton (h part hpart), List.map_singleton,
      String.ofList_toList]
  rw [names_join, List.flatMap_congr hnames, ← List.filter_flatMap, List.flatMap_singleton']

/-- Names that are joined are read back. -/
lemma names_join_of_isName {parts : List String} (h : ∀ part ∈ parts, IsName part) :
    names (join parts) = parts := by
  rw [names_join_of_notMem fun part hpart => (h part hpart).2.2, List.filter_eq_self]
  intro part hpart
  simp [counts, (h part hpart).1, (h part hpart).2.1]

/-! ## File name and parent -/

/-- The step to a name. -/
def Step.ofName (name : String) : Step :=
  if name = ".." then .up else .into name

lemma Step.ofPiece?_eq (piece : String) :
    Step.ofPiece? piece = if counts piece then some (Step.ofName piece) else none := by
  unfold Step.ofPiece? Step.ofName counts
  by_cases hempty : piece = "" <;> by_cases hdot : piece = "." <;> simp [hempty, hdot]
  split <;> rfl

/-- The steps of a path are those of its names, after the one that it may begin with. -/
lemma steps_eq (path : String) :
    steps path = (start? path).toList ++ (names path).map Step.ofName := by
  have hsteps : (pieces path).filterMap Step.ofPiece? = (names path).map Step.ofName := by
    rw [names_eq, pieces_eq, ← List.filterMap_eq_map, List.filterMap_filter]
    refine List.filterMap_congr fun piece _ => ?_
    rw [Step.ofPiece?_eq]
    rfl
  rw [steps, hsteps]

/-- A step at the beginning has no name. -/
lemma name?_of_mem_start? {path : String} {step : Step} (h : step ∈ start? path) :
    step.name? = none := by
  unfold start? at h
  split at h
  · obtain rfl := Option.mem_some_iff.mp h
    rfl
  · split at h
    · obtain rfl := Option.mem_some_iff.mp h
      rfl
    · exact absurd h (Option.not_mem_none step)

lemma name?_ofName (name : String) : (Step.ofName name).name? = some name := by
  unfold Step.ofName
  split
  · next hup => rw [hup]; rfl
  · rfl

/-- The names of a path are those of its steps. -/
lemma filterMap_steps (path : String) : (steps path).filterMap Step.name? = names path := by
  have hstart : (start? path).toList.filterMap Step.name? = [] := by
    rw [List.filterMap_eq_nil_iff]
    intro step hstep
    exact name?_of_mem_start? (Option.mem_toList.mp hstep)
  rw [steps_eq, List.filterMap_append, hstart, List.nil_append, List.filterMap_map]
  simp [name?_ofName]

/-- Without names, the last step is the one at the beginning. -/
lemma getLast?_steps_nil {path : String} (h : names path = []) :
    (steps path).getLast? = start? path := by
  rw [steps_eq, h, List.map_nil, List.append_nil]
  cases start? path <;> rfl

lemma getLast?_steps_concat {path : String} {before : List String} {last : String}
    (h : names path = before ++ [last]) : (steps path).getLast? = some (Step.ofName last) := by
  rw [steps_eq, h, List.map_append, List.map_singleton, ← List.append_assoc,
    List.getLast?_concat]

lemma fileName?_nil {path : String} (h : names path = []) : fileName? path = none := by
  unfold fileName?
  rw [getLast?_steps_nil h]
  split
  · next name hstart => cases name?_of_mem_start? hstart
  · rfl

lemma fileName?_concat {path : String} {before : List String} {last : String}
    (h : names path = before ++ [last]) :
    fileName? path = if last = ".." then none else some last := by
  unfold fileName?
  rw [getLast?_steps_concat h, Step.ofName]
  split_ifs <;> rfl

lemma trimEnd_eq (parts : List String) :
    trimEnd parts = parts.rdropWhile fun part => !counts part := by
  have hcounts : (fun part => (Step.ofPiece? part).isNone) = fun part => !counts part := by
    funext part
    rw [Step.ofPiece?_eq]
    cases counts part <;> rfl
  rw [trimEnd, hcounts]
  rfl

lemma filter_trimEnd (parts : List String) :
    (trimEnd parts).filter counts = parts.filter counts := by
  rw [trimEnd_eq]
  induction parts using List.reverseRecOn with
  | nil => rfl
  | append_singleton parts part ih =>
    rw [List.rdropWhile_concat]
    by_cases hcounts : counts part = true
    · simp [hcounts]
    · simp [hcounts, ih]

lemma trimEnd_subset (parts : List String) : trimEnd parts ⊆ parts := by
  rw [trimEnd_eq]
  exact (List.rdropWhile_prefix _ _).subset

/-- The last piece that makes a step is the last name, and the others are made of those before. -/
lemma exists_trimEnd_pieces {path : String} {before : List String} {last : String}
    (h : names path = before ++ [last]) :
    ∃ front, trimEnd (pieces path) = front ++ [last] ∧ front.filter counts = before := by
  have hfilter : (trimEnd (pieces path)).filter counts = before ++ [last] := by
    rw [filter_trimEnd, pieces_eq, ← names_eq, h]
  rcases List.eq_nil_or_concat (trimEnd (pieces path)) with hnil | ⟨front, piece, hfront⟩
  · simp [hnil] at hfilter
  · rw [List.concat_eq_append] at hfront
    have hpiece : counts piece = true := by
      have hlast := List.rdropWhile_last_not (fun part => !counts part) (pieces path)
        (by rw [← trimEnd_eq, hfront]; simp)
      simpa [← trimEnd_eq, hfront] using hlast
    rw [hfront, List.filter_append, List.filter_singleton, hpiece] at hfilter
    obtain ⟨hbefore, hlast⟩ := List.append_inj' hfilter rfl
    obtain rfl : piece = last := by simpa using hlast
    exact ⟨front, hfront, hbefore⟩

lemma names_textOfPieces (path : String) {kept : List String}
    (h : ∀ part ∈ kept, '/' ∉ part.toList) :
    names (textOfPieces (start? path) kept) = kept.filter counts := by
  cases kept with
  | nil =>
    unfold start?
    split_ifs <;> decide
  | cons part rest => exact names_join_of_notMem h

/-- A path with names has a parent, and the names of the parent are all but the last one. -/
lemma exists_parent? {path : String} {before : List String} {last : String}
    (h : names path = before ++ [last]) :
    ∃ parent, parent? path = some parent ∧ names parent = before := by
  obtain ⟨front, hfront, hbefore⟩ := exists_trimEnd_pieces h
  have hslash : ∀ part ∈ trimEnd front, '/' ∉ part.toList := by
    intro part hpart
    have hmem : part ∈ trimEnd (pieces path) := by
      rw [hfront]
      exact List.mem_append_left _ (trimEnd_subset front hpart)
    exact slash_notMem_of_mem_components (pieces_eq path ▸ trimEnd_subset _ hmem)
  have hnames : names (textOfPieces (start? path) (trimEnd front)) = before := by
    rw [names_textOfPieces path hslash, filter_trimEnd, hbefore]
  refine ⟨_, ?_, hnames⟩
  unfold parent?
  rw [getLast?_steps_concat h, hfront, List.dropLast_concat]
  -- The last step is to a name, so it is neither the root nor `.` at the beginning.
  unfold Step.ofName
  split_ifs <;> rfl

/-! ## Splitting -/

/-- Names as directories and a file name, which `..` cannot be. -/
def Parts.ofNames? (names : List String) : Option Parts :=
  match names.getLast? with
  | none => none
  | some name => if name = ".." then none else some ⟨names.dropLast, name⟩

/-- File name and parent are found in different ways, but together they are the names of the path.
-/
lemma split_eq_ofNames? (path : String) : split path = Parts.ofNames? (names path) := by
  rcases List.eq_nil_or_concat (names path) with hnil | ⟨before, last, hnames⟩
  · rw [split, fileName?_nil hnil, hnil]
    rfl
  · rw [List.concat_eq_append] at hnames
    obtain ⟨parent, hparent, hbefore⟩ := exists_parent? hnames
    rw [split, fileName?_concat hnames, hparent, hnames]
    by_cases hup : last = ".."
    · simp [Parts.ofNames?, hup]
    · simp [Parts.ofNames?, hup, filterMap_steps, hbefore]

lemma split_eq_some_iff {path : String} {parts : Parts} :
    split path = some parts ↔
      names path = parts.directories ++ [parts.fileName] ∧ parts.fileName ≠ ".." := by
  obtain ⟨directories, fileName⟩ := parts
  rcases List.eq_nil_or_concat (names path) with hnil | ⟨init, last, hnames⟩
  · simp [split_eq_ofNames?, Parts.ofNames?, hnil]
  · rw [List.concat_eq_append] at hnames
    have hends : init ++ [last] = directories ++ [fileName] ↔
        init = directories ∧ last = fileName := by
      simp
    simp only [split_eq_ofNames?, Parts.ofNames?, hnames, List.getLast?_concat,
      List.dropLast_concat, hends]
    by_cases hup : last = ".."
    · rw [if_pos hup]
      simp only [reduceCtorEq, false_iff]
      rintro ⟨⟨-, rfl⟩, hne⟩
      exact hne hup
    · rw [if_neg hup, Option.some.injEq, Parts.mk.injEq]
      constructor
      · rintro ⟨hinit, rfl⟩
        exact ⟨⟨hinit, rfl⟩, hup⟩
      · rintro ⟨⟨hinit, hlast⟩, -⟩
        exact ⟨hinit, hlast⟩

lemma split_eq_none_iff {path : String} :
    split path = none ↔ names path = [] ∨ (names path).getLast? = some ".." := by
  rw [split_eq_ofNames?, Parts.ofNames?]
  cases hlast : (names path).getLast? with
  | none => simp [List.getLast?_eq_none_iff.mp hlast]
  | some name =>
    have hne : names path ≠ [] := by
      intro hnil
      simp [hnil] at hlast
    by_cases hup : name = ".." <;> simp [hup, hne]

/-! ## Paths that differ in what does not count -/

/-- One thing that does not count is taken out of a path. -/
inductive Tidies : String → String → Prop
  /-- One of two slashes in a row. -/
  | repeated (before after : String) : Tidies (before ++ "//" ++ after) (before ++ "/" ++ after)
  /-- A slash at the end. -/
  | trailing (path : String) : Tidies (path ++ "/") path
  /-- A slash at the front. -/
  | leading (path : String) : Tidies ("/" ++ path) path
  /-- A component `.`, wherever it stands. -/
  | dot (before after : List String) :
      Tidies (join (before ++ "." :: after)) (join (before ++ after))

/-- Two paths differ only in what does not count. -/
def Alike : String → String → Prop :=
  Relation.EqvGen Tidies

lemma Tidies.names_eq {path path' : String} (h : Tidies path path') : names path = names path' := by
  cases h with
  | repeated before after =>
    rw [two_slashes, names_append, names_append, names_append, names_empty, List.nil_append]
  | trailing =>
    have hend : path' ++ "/" = path' ++ "/" ++ "" := by simp
    rw [hend, names_append, names_empty, List.append_nil]
  | leading =>
    have hfront : "/" ++ path' = "" ++ "/" ++ path' := by simp
    rw [hfront, names_append, names_empty, List.nil_append]
  | dot before after =>
    rw [names_join, names_join, List.flatMap_append, List.flatMap_append, List.flatMap_cons,
      names_dot, List.nil_append]

lemma Alike.names_eq {path path' : String} (h : Alike path path') : names path = names path' := by
  induction h with
  | rel path path' htidies => exact htidies.names_eq
  | refl path => rfl
  | symm path path' _ ih => exact ih.symm
  | trans path path' path'' _ _ ih ih' => exact ih.trans ih'

/-- An empty component can be taken out, since it is a slash too many. -/
lemma alike_join_empty (before after : List String) :
    Alike (join (before ++ "" :: after)) (join (before ++ after)) := by
  have hcons : "" :: after ≠ [] := List.cons_ne_nil _ _
  -- The slash too many is at the front, at the end or between, depending on what is around it.
  rcases eq_or_ne before [] with rfl | hbefore <;> rcases eq_or_ne after [] with rfl | hafter
  · exact .refl _
  · have hjoin : join ("" :: after) = "/" ++ join after := by
      rw [join_cons "" hafter, String.empty_append]
    rw [List.nil_append, List.nil_append, hjoin]
    exact .rel _ _ (.leading _)
  · have hjoin : join (before ++ [""]) = join before ++ "/" := by
      rw [join_append hbefore hcons, join_singleton, String.append_empty]
    rw [hjoin, List.append_nil]
    exact .rel _ _ (.trailing _)
  · have hjoin : join (before ++ "" :: after) = join before ++ "//" ++ join after := by
      rw [join_append hbefore hcons, join_cons "" hafter, two_slashes]
    rw [hjoin, join_append hbefore hafter]
    exact .rel _ _ (.repeated _ _)

lemma alike_join_filter (before after : List String) :
    Alike (join (before ++ after)) (join (before ++ after.filter counts)) := by
  -- Components that count go over to those before, which stay as they are.
  induction after generalizing before with
  | nil => exact .refl _
  | cons component rest ih =>
    by_cases hcounts : counts component = true
    · rw [List.filter_cons_of_pos hcounts]
      simpa using ih (before ++ [component])
    · rw [List.filter_cons_of_neg hcounts]
      have hout : component = "" ∨ component = "." := by
        simpa [counts, or_iff_not_imp_left] using hcounts
      rcases hout with rfl | rfl
      · exact .trans _ _ _ (alike_join_empty before rest) (ih before)
      · exact .trans _ _ _ (.rel _ _ (.dot before rest)) (ih before)

/-- A path is like its names, joined. -/
lemma alike_join_names (path : String) : Alike path (join (names path)) := by
  have h := alike_join_filter [] (components path)
  rwa [List.nil_append, List.nil_append, join_components, ← names_eq] at h

lemma alike_iff {path path' : String} : Alike path path' ↔ names path = names path' := by
  constructor
  · exact Alike.names_eq
  · intro hnames
    refine .trans _ _ _ (alike_join_names path) ?_
    rw [hnames]
    exact .symm _ _ (alike_join_names path')

/-! ## The normal form -/

lemma split_congr {path path' : String} (h : names path = names path') :
    split path = split path' := by
  rw [split_eq_ofNames?, split_eq_ofNames?, h]

/-- Directories and file name, joined, split into themselves. -/
lemma split_join {path : String} {parts : Parts} (h : split path = some parts) :
    split (join (parts.directories ++ [parts.fileName])) = some parts := by
  obtain ⟨hnames, hup⟩ := split_eq_some_iff.mp h
  refine split_eq_some_iff.mpr ⟨names_join_of_isName ?_, hup⟩
  intro name hname
  exact isName_of_mem_names (hnames ▸ hname)

/-- Exactly the paths that are alike split into the same directories and file name. -/
lemma split_eq_some_iff_alike {path other : String} {parts : Parts} (h : split path = some parts) :
    split other = some parts ↔ Alike path other := by
  rw [alike_iff]
  constructor
  · intro hother
    rw [(split_eq_some_iff.mp h).1, (split_eq_some_iff.mp hother).1]
  · intro hnames
    rw [← split_congr hnames, h]

/-- A path splits into the components that count, the last one being the file name.  What comes out
is a normal form: it consists of names, it splits into itself, and paths that are alike have it in
common.  There is none exactly if no component counts or the last one that does is `..`. -/
theorem split_is_a_normal_form (path : String) :
    (∀ parts, split path = some parts →
      parts.directories ++ [parts.fileName] = (components path).filter counts ∧
      (∀ name ∈ parts.directories ++ [parts.fileName], IsName name) ∧ parts.fileName ≠ ".." ∧
      split (join (parts.directories ++ [parts.fileName])) = some parts ∧
      ∀ other, split other = some parts ↔ Alike path other) ∧
    (∀ other, Alike path other → split path = split other) ∧
    (split path = none ↔ (∀ component ∈ components path, component = "" ∨ component = ".") ∨
      ((components path).filter counts).getLast? = some "..") := by
  refine ⟨?_, fun other halike => split_congr halike.names_eq, ?_⟩
  · intro parts hparts
    obtain ⟨hnames, hup⟩ := split_eq_some_iff.mp hparts
    refine ⟨by rw [← names_eq, hnames], ?_, hup, split_join hparts, fun other =>
      split_eq_some_iff_alike hparts⟩
    intro name hname
    exact isName_of_mem_names (hnames ▸ hname)
  · have hnone : (components path).filter counts = [] ↔
        ∀ component ∈ components path, component = "" ∨ component = "." := by
      simp [counts, or_iff_not_imp_left]
    rw [split_eq_none_iff, names_eq, hnone]

theorem split_is_a_normal_form_untidy :
    split "/./A//../B/." = some ⟨["A", ".."], "B"⟩ ∧
      (∀ name ∈ ["A", "..", "B"], IsName name) ∧
      split (join ["A", "..", "B"]) = some ⟨["A", ".."], "B"⟩ ∧
      Alike "/./A//../B/." "A/../B" ∧ split "A/./.." = none := by
  have hparts : split "/./A//../B/." = some ⟨["A", ".."], "B"⟩ := by decide
  obtain ⟨-, hnames, -, hjoin, halike⟩ := (split_is_a_normal_form _).1 _ hparts
  refine ⟨hparts, hnames, hjoin, (halike _).mp (by decide), ?_⟩
  exact (split_is_a_normal_form _).2.2.mpr (.inr (by decide))

end XcodeProject.Path
