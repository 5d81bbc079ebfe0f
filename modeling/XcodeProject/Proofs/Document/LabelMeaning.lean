import Mathlib
import XcodeProject.Document.Labels
import XcodeProject.Proofs.SortedDict

/-!
# What the label of an id says

The labels of a table are computed in two passes.  The second pass reads names from the labels that
it is writing over, so what it finds there depends on the order of ids.  This module says what the
label of an id is without any passes (`IsLabel`):

* the label of an id that build phases list is made of the name of what it builds and the name of
  the last of these phases;
* the label of a configuration list that objects own tells the last of these owners;
* any other id is labelled by the name of its own object.

The two agree for tables in which build files are apart from what they build (`BuildFilesApart`).
There the names that the second pass reads are never written over (`KeepsOwnName`): the names of
phases, and those of what build files build.  So every write of the pass is known from the table
alone, and of several writes the last one counts, which is the one by the last object in id order
(`IsLast.split`).
-/

namespace XcodeProject

open PropertyList (Value)

/-! ## The last object with a property -/

namespace ObjectTable

/-- The last object of a table, in the order of ids, that has a property. -/
structure IsLast (table : ObjectTable) (p : Object → Prop) (id : ObjectId) (object : Object) :
    Prop where
  /-- The object is in the table. -/
  found : table.object? id = some object
  /-- It has the property. -/
  holds : p object
  /-- No object after it has the property. -/
  last : ∀ other object', table.object? other = some object' → p object' → other ≤ id

variable {table : ObjectTable} {p : Object → Prop} {id : ObjectId} {object : Object}

lemma object?_of_mem (hsorted : Dict.Sorted table) (h : (id, Value.dictionary object) ∈ table) :
    table.object? id = some object :=
  object?_eq_some.mpr ((Dict.lookup_eq_some_iff_mem hsorted.nodup id _).mpr h)

/-- The entries of the table behind the last object with a property do not have it. -/
lemma IsLast.split (hsorted : Dict.Sorted table) (h : table.IsLast p id object) :
    ∃ before after, table = before ++ (id, .dictionary object) :: after ∧
      ∀ other object', (other, Value.dictionary object') ∈ after → ¬ p object' := by
  obtain ⟨before, after, rfl⟩ := List.append_of_mem
    (Dict.mem_of_lookup (object?_eq_some.mp h.found))
  refine ⟨before, after, rfl, ?_⟩
  intro other object' hmem hp
  have hobject' := object?_of_mem hsorted
    (List.mem_append_right before (List.mem_cons_of_mem _ hmem))
  have hpairs : (before ++ (id, Value.dictionary object) :: after).Pairwise fun a b => a.1 < b.1 :=
    List.pairwise_map.mp hsorted
  have hlt : id < other := (List.pairwise_cons.mp (List.pairwise_append.mp hpairs).2.1).1 _ hmem
  exact absurd (h.last other object' hobject' hp) (not_le.mpr hlt)

lemma exists_isLast (hobject : table.object? id = some object) (hp : p object) :
    ∃ last object', table.IsLast p last object' := by
  classical
  let having := table.keys.toFinset.filter fun id =>
    ∃ object, table.object? id = some object ∧ p object
  have hmem : ∀ id object, table.object? id = some object → p object → id ∈ having := by
    intro id object hobject hp
    have hkey := (Dict.contains_eq_true_iff table id).mp
      (Dict.contains_of_lookup (object?_eq_some.mp hobject))
    exact Finset.mem_filter.mpr ⟨List.mem_toFinset.mpr hkey, object, hobject, hp⟩
  have hsome : having.Nonempty := ⟨id, hmem id object hobject hp⟩
  obtain ⟨last, hlast, hmax⟩ := having.exists_max_image (fun id => id) hsome
  obtain ⟨-, object', hobject', hp'⟩ := Finset.mem_filter.mp hlast
  refine ⟨last, object', hobject', hp', ?_⟩
  intro other found hfound hp
  exact hmax other (hmem other found hfound hp)

end ObjectTable

namespace Document

/-! ## Labels without passes -/

/-- The ids that an object lists as a build phase; an object of another kind lists none. -/
def phaseFiles (object : Object) : List ObjectId :=
  if Labels.isPhaseKind object.kind then object.ids "files" else []

/-- The ids that the build phases of a table list. -/
def listedFiles (table : ObjectTable) : List ObjectId :=
  table.flatMap fun entry => (entry.2.dictionary?.map phaseFiles).getD []

/-- An object owns a configuration list. -/
def Owns (table : ObjectTable) (list : ObjectId) (owner : Object) : Prop :=
  table.kind? list = some Kind.configurationList ∧
    owner.text? "buildConfigurationList" = some list

instance (table : ObjectTable) (list : ObjectId) (owner : Object) :
    Decidable (Owns table list owner) :=
  inferInstanceAs (Decidable (_ ∧ _))

/-- The name that the object under an id has by itself. -/
def nameAt (table : ObjectTable) (id : ObjectId) : Option String :=
  (table.object? id).bind ownName

/-- The name of what a build file builds. -/
def builtName (table : ObjectTable) (file : ObjectId) : String :=
  (((table.object? file).bind builtId?).bind (nameAt table)).getD "(null)"

/-- What an id stands for, in the words of its label. -/
inductive IsLabel (table : ObjectTable) (projectName : Option String) (id : ObjectId) :
    Option String → Prop
  /-- A file in the last phase that lists it. -/
  | buildFile {phase : ObjectId} {object : Object}
      (hphase : table.IsLast (id ∈ phaseFiles ·) phase object) :
      IsLabel table projectName id
        (some (builtName table id ++ " in " ++ (ownName object).getD ""))
  /-- The configurations of the last object that owns the list of them. -/
  | configurationList {owner : ObjectId} {object : Object}
      (howner : table.IsLast (Owns table id) owner object) :
      IsLabel table projectName id
        (some ("Build configuration list for " ++ object.kind ++ " \"" ++
          Labels.ownerName projectName object ++ "\""))
  /-- The object itself, if no phase lists it and no object owns it as a configuration list. -/
  | ownName (hfile : id ∉ listedFiles table)
      (hlist : ∀ owner object, table.object? owner = some object → ¬ Owns table id object) :
      IsLabel table projectName id (nameAt table id)

/-- What phases list are build files, and what these build is neither listed by a phase nor a
configuration list. -/
structure BuildFilesApart (table : ObjectTable) : Prop where
  /-- An id that a phase lists has a build file for its object, if it has an object. -/
  listed : ∀ file ∈ listedFiles table, ∀ object ∈ table.object? file,
    object.kind = Kind.buildFile
  /-- What a listed build file names is not listed itself. -/
  built_not_listed : ∀ file ∈ listedFiles table, ∀ key ∈ ["fileRef", "productRef"],
    ∀ built ∈ table.text? file key, built ∉ listedFiles table
  /-- What a listed build file names is not a configuration list. -/
  built_not_list : ∀ file ∈ listedFiles table, ∀ key ∈ ["fileRef", "productRef"],
    ∀ built ∈ table.text? file key, table.kind? built ≠ some Kind.configurationList

lemma buildFilesApart_iff (table : ObjectTable) :
    BuildFilesApart table ↔ ∀ file ∈ listedFiles table,
      (∀ object ∈ table.object? file, object.kind = Kind.buildFile) ∧
      ∀ key ∈ ["fileRef", "productRef"], ∀ built ∈ table.text? file key,
        built ∉ listedFiles table ∧ table.kind? built ≠ some Kind.configurationList := by
  constructor
  · intro h file hfile
    exact ⟨h.listed file hfile, fun key hkey built hbuilt =>
      ⟨h.built_not_listed file hfile key hkey built hbuilt,
        h.built_not_list file hfile key hkey built hbuilt⟩⟩
  · intro h
    exact ⟨fun file hfile => (h file hfile).1,
      fun file hfile key hkey built hbuilt => ((h file hfile).2 key hkey built hbuilt).1,
      fun file hfile key hkey built hbuilt => ((h file hfile).2 key hkey built hbuilt).2⟩

instance (table : ObjectTable) : Decidable (BuildFilesApart table) :=
  decidable_of_iff' _ (buildFilesApart_iff table)

variable {table : ObjectTable}

lemma mem_listedFiles {phase file : ObjectId} {object : Object}
    (hphase : table.object? phase = some object) (hfile : file ∈ phaseFiles object) :
    file ∈ listedFiles table :=
  List.mem_flatMap.mpr
    ⟨_, Dict.mem_of_lookup (ObjectTable.object?_eq_some.mp hphase), by simpa [Value.dictionary?]⟩

lemma exists_of_mem_listedFiles (hsorted : Dict.Sorted table) {file : ObjectId}
    (h : file ∈ listedFiles table) :
    ∃ phase object, table.object? phase = some object ∧ file ∈ phaseFiles object := by
  obtain ⟨⟨phase, value⟩, hmem, hfile⟩ := List.mem_flatMap.mp h
  cases value with
  | string text => simp [Value.dictionary?] at hfile
  | array items => simp [Value.dictionary?] at hfile
  | dictionary object =>
    exact ⟨phase, object, ObjectTable.object?_of_mem hsorted hmem,
      by simpa [Value.dictionary?] using hfile⟩

/-- What no phase of the table lists, no object in it lists as a phase. -/
lemma notMem_phaseFiles (hsorted : Dict.Sorted table) {id other : ObjectId} {object : Object}
    (hid : id ∉ listedFiles table) (hmem : (other, Value.dictionary object) ∈ table) :
    id ∉ phaseFiles object :=
  fun hfile => hid (mem_listedFiles (ObjectTable.object?_of_mem hsorted hmem) hfile)

lemma exists_text?_of_builtId? {buildFile : Object} {built : ObjectId}
    (h : builtId? buildFile = some built) :
    ∃ key ∈ ["fileRef", "productRef"], buildFile.text? key = some built := by
  obtain ⟨value, hvalue, hstring⟩ := Option.bind_eq_some_iff.mp h
  rcases (Option.orElse_eq_some _ _ _).mp hvalue with hfile | ⟨-, hproduct⟩
  · exact ⟨"fileRef", by simp, by rw [Object.text?, hfile, Option.bind_some, hstring]⟩
  · exact ⟨"productRef", by simp, by rw [Object.text?, hproduct, Option.bind_some, hstring]⟩

/-! ## Names that are never written over -/

/-- Nothing writes over the name of an id. -/
def KeepsOwnName (table : ObjectTable) (id : ObjectId) : Prop :=
  id ∉ listedFiles table ∧ table.kind? id ≠ some Kind.configurationList

/-- The labels of ids that keep their own names. -/
def HasOwnNames (table : ObjectTable) (labels : Labels) : Prop :=
  ∀ id, KeepsOwnName table id → labels.lookup id = nameAt table id

namespace BuildFilesApart

/-- A phase keeps its name: it is not a build file, so no phase lists it. -/
lemma keepsOwnName_phase (h : BuildFilesApart table) {phase : ObjectId} {object : Object}
    (hphase : table.object? phase = some object) (hkind : Labels.isPhaseKind object.kind = true) :
    KeepsOwnName table phase := by
  constructor
  · intro hlisted
    rw [h.listed phase hlisted object hphase] at hkind
    exact absurd hkind (by decide)
  · intro hlist
    have hisa : object.text? "isa" = some Kind.configurationList := by
      simpa [ObjectTable.kind?, hphase] using hlist
    rw [Object.kind, hisa] at hkind
    exact absurd hkind (by decide)

/-- What a build file builds keeps its name. -/
lemma keepsOwnName_built (h : BuildFilesApart table) {file built : ObjectId}
    (hfile : file ∈ listedFiles table) (hbuilt : (table.object? file).bind builtId? = some built) :
    KeepsOwnName table built := by
  obtain ⟨buildFile, hbuildFile, hid⟩ := Option.bind_eq_some_iff.mp hbuilt
  obtain ⟨key, hkey, hnamed⟩ := exists_text?_of_builtId? hid
  have htext : table.text? file key = some built := by
    rw [ObjectTable.text?, hbuildFile, Option.bind_some, hnamed]
  exact ⟨h.built_not_listed file hfile key hkey built htext,
    h.built_not_list file hfile key hkey built htext⟩

end BuildFilesApart

namespace Labels

variable {labels : Labels}

/-! ## The first pass -/

lemma lookup_ownNames (hsorted : Dict.Sorted table) (id : ObjectId) :
    (ownNames table).lookup id = nameAt table id := by
  induction table with
  | nil => rfl
  | cons entry rest ih =>
    obtain ⟨k, value⟩ := entry
    have ih := ih (List.pairwise_cons.mp hsorted).2
    have hcons : ownNames ((k, value) :: rest) =
        ((value.dictionary?.bind ownName).map fun name => (k, name)).toList ++
          ownNames rest := by
      rw [ownNames, List.filterMap_cons]
      dsimp only
      cases value.dictionary?.bind ownName <;> rfl
    rw [hcons]
    by_cases hk : id = k
    · subst hk
      have hrest : nameAt rest id = none := by
        cases hlookup : List.lookup id rest with
        | none => simp [nameAt, ObjectTable.object?, hlookup]
        | some other => exact absurd rfl (hsorted.ne_of_lookup hlookup)
      have hname : nameAt ((id, value) :: rest) id = value.dictionary?.bind ownName := by
        simp [nameAt, ObjectTable.object?]
      rw [hname]
      cases hown : value.dictionary?.bind ownName with
      | none => exact ih.trans hrest
      | some name => simp
    · have hname : nameAt ((k, value) :: rest) id = nameAt rest id := by
        simp only [nameAt, ObjectTable.object?, Dict.lookup_cons_of_ne hk]
      rw [hname, ← ih]
      cases value.dictionary?.bind ownName with
      | none => rfl
      | some name => exact Dict.lookup_cons_of_ne hk name

lemma hasOwnNames_ownNames (hsorted : Dict.Sorted table) : HasOwnNames table (ownNames table) :=
  fun id _ => lookup_ownNames hsorted id

/-! ## One step of the second pass -/

/-- An object has nothing to do with the label of an id. -/
def Leaves (table : ObjectTable) (id : ObjectId) (object : Object) : Prop :=
  id ∉ phaseFiles object ∧ ¬ Owns table id object

lemma addPhase_eq (labels : Labels) (phase : ObjectId) (object : Object) :
    addPhase table labels phase object = (phaseFiles object).foldl (fun labels' file =>
      Dict.insert labels' file
        (buildFileLabel table labels' ((labels.lookup phase).getD "") file)) labels := by
  unfold addPhase phaseFiles
  split <;> rfl

/-- An object labels the configuration list that it owns. -/
lemma lookup_addOwner (projectName : Option String) (labels : Labels) (object : Object)
    (id : ObjectId) :
    (addOwner table projectName labels object).lookup id =
      if Owns table id object then some ("Build configuration list for " ++ object.kind ++ " \"" ++
        ownerName projectName object ++ "\"") else labels.lookup id := by
  unfold addOwner
  cases hlist : object.text? "buildConfigurationList" with
  | none => simp [Owns, hlist]
  | some list =>
    by_cases hkind : table.kind? list = some Kind.configurationList
    · simp only [if_pos hkind, Dict.lookup_insert, Owns, hlist, Option.some.injEq]
      by_cases hid : id = list
      · subst hid
        simp [hkind, quotedAfter, String.append_assoc]
      · simp [hid, Ne.symm hid]
    · have hnot : ¬ Owns table id object := by
        rintro ⟨hlistKind, hid⟩
        rw [hlist, Option.some.injEq] at hid
        exact hkind (hid ▸ hlistKind)
      simp only [if_neg hkind, if_neg hnot]

lemma lookup_foldl_of_notMem {files : List ObjectId} {id : ObjectId} (hid : id ∉ files)
    (label : Labels → ObjectId → String) (labels : Labels) :
    (files.foldl (fun labels file => Dict.insert labels file (label labels file)) labels).lookup id =
      labels.lookup id := by
  induction files generalizing labels with
  | nil => rfl
  | cons file rest ih =>
    obtain ⟨hne, hrest⟩ := not_or.mp (mt List.mem_cons.mpr hid)
    rw [List.foldl_cons, ih hrest, Dict.lookup_insert, if_neg hne]

/-- The step leaves labels that its object has nothing to do with as they are. -/
lemma lookup_addEntry_of_leaves (projectName : Option String) (labels : Labels) {id : ObjectId}
    {entry : ObjectId × Value}
    (hentry : ∀ object, entry.2 = .dictionary object → Leaves table id object) :
    (addEntry table projectName labels entry).lookup id = labels.lookup id := by
  obtain ⟨owner, value⟩ := entry
  cases value with
  | string text => rfl
  | array items => rfl
  | dictionary object =>
    obtain ⟨hfile, hlist⟩ := hentry object rfl
    simp only [addEntry, Value.dictionary?]
    rw [lookup_addOwner, if_neg hlist, addPhase_eq, lookup_foldl_of_notMem hfile]

/-! ## The second pass -/

lemma lookup_foldl_addEntry_of_leaves (projectName : Option String) {id : ObjectId}
    {entries : List (ObjectId × Value)} (hentries : ∀ other object,
      (other, Value.dictionary object) ∈ entries → Leaves table id object) (labels : Labels) :
    (entries.foldl (addEntry table projectName) labels).lookup id = labels.lookup id := by
  induction entries generalizing labels with
  | nil => rfl
  | cons entry rest ih =>
    have hentry : ∀ object, entry.2 = .dictionary object → Leaves table id object := by
      intro object hobject
      refine hentries entry.1 object ?_
      rw [← hobject]
      exact List.mem_cons_self
    have hrest : ∀ other object, (other, Value.dictionary object) ∈ rest → Leaves table id object :=
      fun other object hmem => hentries other object (List.mem_cons_of_mem _ hmem)
    rw [List.foldl_cons, ih hrest, lookup_addEntry_of_leaves projectName labels hentry]

end Labels

/-! ## What the second pass reads -/

namespace HasOwnNames

open Labels

variable {labels : Labels}

lemma insert (hlabels : HasOwnNames table labels) {file : ObjectId}
    (hfile : file ∈ listedFiles table) (label : String) :
    HasOwnNames table (Dict.insert labels file label) := by
  intro id hid
  have hne : id ≠ file := by
    rintro rfl
    exact hid.1 hfile
  rw [Dict.lookup_insert, if_neg hne]
  exact hlabels id hid

/-- However far the pass has come, ids that keep their own names have them. -/
lemma foldl_addEntry (hsorted : Dict.Sorted table) (hlabels : HasOwnNames table labels)
    (projectName : Option String) {entries : List (ObjectId × Value)} (hentries : entries ⊆ table) :
    HasOwnNames table (entries.foldl (addEntry table projectName) labels) := by
  intro id hid
  rw [lookup_foldl_addEntry_of_leaves, hlabels id hid]
  intro other object hmem
  exact ⟨notMem_phaseFiles hsorted hid.1 (hentries hmem), fun hlist => hid.2 hlist.1⟩

lemma buildFileLabel_eq (hlabels : HasOwnNames table labels) (h : BuildFilesApart table)
    (phase : String) {file : ObjectId} (hfile : file ∈ listedFiles table) :
    buildFileLabel table labels phase file = builtName table file ++ " in " ++ phase := by
  unfold buildFileLabel builtName
  cases hbuilt : (table.object? file).bind builtId? with
  | none => rfl
  | some built =>
    simp only [Option.bind_some, hlabels built (h.keepsOwnName_built hfile hbuilt)]

/-- A phase labels every file that it lists by what the file builds, although it goes on writing
labels while it reads them. -/
lemma lookup_foldl_of_mem (hlabels : HasOwnNames table labels) (h : BuildFilesApart table)
    (phase : String) {files : List ObjectId} (hfiles : files ⊆ listedFiles table) {id : ObjectId}
    (hid : id ∈ files) :
    (files.foldl (fun labels file =>
      Dict.insert labels file (buildFileLabel table labels phase file)) labels).lookup id =
        some (builtName table id ++ " in " ++ phase) := by
  induction files generalizing labels with
  | nil => cases hid
  | cons file rest ih =>
    obtain ⟨hfile, hrest⟩ := List.cons_subset.mp hfiles
    rw [List.foldl_cons]
    by_cases hlater : id ∈ rest
    · exact ih (hlabels.insert hfile _) hrest hlater
    · obtain rfl : id = file := (List.mem_cons.mp hid).resolve_right hlater
      rw [lookup_foldl_of_notMem hlater, Dict.lookup_insert, if_pos rfl,
        hlabels.buildFileLabel_eq h phase hfile]

lemma lookup_addPhase (hlabels : HasOwnNames table labels) (h : BuildFilesApart table)
    {phase id : ObjectId} {object : Object} (hphase : table.object? phase = some object)
    (hid : id ∈ phaseFiles object) :
    (addPhase table labels phase object).lookup id =
      some (builtName table id ++ " in " ++ (ownName object).getD "") := by
  have hkind : isPhaseKind object.kind = true := by
    by_contra hnot
    simp [phaseFiles, hnot] at hid
  have hname : labels.lookup phase = ownName object := by
    rw [hlabels phase (h.keepsOwnName_phase hphase hkind), nameAt, hphase, Option.bind_some]
  rw [addPhase_eq, hlabels.lookup_foldl_of_mem h _ (fun file => mem_listedFiles hphase) hid, hname]

end HasOwnNames

/-! ## The labels of a table -/

lemma BuildFilesApart.not_owns (h : BuildFilesApart table) {id : ObjectId}
    (hid : id ∈ listedFiles table) (object : Object) : ¬ Owns table id object := by
  rintro ⟨hlist, -⟩
  obtain ⟨found, hfound, hisa⟩ := Option.bind_eq_some_iff.mp hlist
  have hkind := h.listed id hid found hfound
  rw [Object.kind, hisa] at hkind
  exact absurd hkind (by decide)

lemma Labels.ofTable_split {before after : List (ObjectId × Value)} {entry : ObjectId × Value}
    (htable : table = before ++ entry :: after) (projectName : Option String) :
    ofTable table projectName = after.foldl (addEntry table projectName)
      (addEntry table projectName
        (before.foldl (addEntry table projectName) (ownNames table)) entry) := by
  have hsplit := congrArg (List.foldl (addEntry table projectName) (ownNames table)) htable
  rwa [List.foldl_append, List.foldl_cons] at hsplit

/-- An id has the label that says what it stands for. -/
lemma lookup_of_isLabel (hsorted : Dict.Sorted table) (h : BuildFilesApart table)
    {projectName : Option String} {id : ObjectId} {label : Option String}
    (hlabel : IsLabel table projectName id label) :
    (Labels.ofTable table projectName).lookup id = label := by
  cases hlabel with
  | @buildFile phase object hphase =>
    -- The entries before the phase have not touched the names that it reads, and those after it
    -- leave what it writes.
    obtain ⟨before, after, htable, hafter⟩ := hphase.split hsorted
    have hbefore : before ⊆ table := htable ▸ List.subset_append_left _ _
    have hlisted := mem_listedFiles hphase.found hphase.holds
    have hnames := (Labels.hasOwnNames_ownNames hsorted).foldl_addEntry hsorted projectName hbefore
    have hleft : ∀ other object, (other, Value.dictionary object) ∈ after →
        Labels.Leaves table id object :=
      fun other object hmem => ⟨hafter other object hmem, h.not_owns hlisted object⟩
    rw [Labels.ofTable_split htable, Labels.lookup_foldl_addEntry_of_leaves projectName hleft]
    simp only [Labels.addEntry, Value.dictionary?]
    rw [Labels.lookup_addOwner, if_neg (h.not_owns hlisted object),
      hnames.lookup_addPhase h hphase.found hphase.holds]
  | @configurationList owner object howner =>
    obtain ⟨before, after, htable, hafter⟩ := howner.split hsorted
    have hrest : after ⊆ table := by
      rw [htable]
      exact fun entry hmem => List.mem_append_right _ (List.mem_cons_of_mem _ hmem)
    have hfile : id ∉ listedFiles table := fun hlisted => h.not_owns hlisted object howner.holds
    have hleft : ∀ other object, (other, Value.dictionary object) ∈ after →
        Labels.Leaves table id object :=
      fun other object hmem =>
        ⟨notMem_phaseFiles hsorted hfile (hrest hmem), hafter other object hmem⟩
    rw [Labels.ofTable_split htable, Labels.lookup_foldl_addEntry_of_leaves projectName hleft]
    simp only [Labels.addEntry, Value.dictionary?]
    rw [Labels.lookup_addOwner, if_pos howner.holds]
  | ownName hfile hlist =>
    have hleft : ∀ other object, (other, Value.dictionary object) ∈ table →
        Labels.Leaves table id object :=
      fun other object hmem => ⟨notMem_phaseFiles hsorted hfile hmem,
        hlist other object (ObjectTable.object?_of_mem hsorted hmem)⟩
    rw [Labels.ofTable, Labels.lookup_foldl_addEntry_of_leaves projectName hleft,
      Labels.lookup_ownNames hsorted]

lemma exists_isLabel (hsorted : Dict.Sorted table) (projectName : Option String) (id : ObjectId) :
    ∃ label, IsLabel table projectName id label := by
  by_cases hfile : id ∈ listedFiles table
  · obtain ⟨phase, object, hphase, hid⟩ := exists_of_mem_listedFiles hsorted hfile
    obtain ⟨last, object', hlast⟩ := ObjectTable.exists_isLast (p := (id ∈ phaseFiles ·)) hphase hid
    exact ⟨_, .buildFile hlast⟩
  · by_cases hlist : ∃ owner object, table.object? owner = some object ∧ Owns table id object
    · obtain ⟨owner, object, howner, hid⟩ := hlist
      obtain ⟨last, object', hlast⟩ := ObjectTable.exists_isLast howner hid
      exact ⟨_, .configurationList hlast⟩
    · exact ⟨_, .ownName hfile fun owner object howner hid => hlist ⟨owner, object, howner, hid⟩⟩

/-- The labels that the two passes leave are those that say what the ids stand for, and an id has no
label exactly if it stands for nothing that has a name. -/
theorem labels_say_what_ids_stand_for (hsorted : Dict.Sorted table) (h : BuildFilesApart table)
    (projectName : Option String) (id : ObjectId) (label : Option String) :
    (Labels.ofTable table projectName).lookup id = label ↔ IsLabel table projectName id label := by
  constructor
  · rintro rfl
    obtain ⟨label, hlabel⟩ := exists_isLabel hsorted projectName id
    rwa [lookup_of_isLabel hsorted h hlabel]
  · exact lookup_of_isLabel hsorted h

/-- Two phases list the build file `A`, which comes before both of them and builds what comes after
them, and two objects own the configuration list `C`.  One of the phases lists an id without an
object. -/
def crossedTable : ObjectTable :=
  [("A", .dictionary [("fileRef", .string "Y"), ("isa", .string Kind.buildFile)]),
    ("B", .dictionary [("files", .array [.string "A", .string "M"]),
      ("isa", .string Kind.sourcesPhase)]),
    ("C", .dictionary [("isa", .string Kind.configurationList)]),
    ("D", .dictionary [("files", .array [.string "Z", .string "A"]),
      ("isa", .string Kind.headersPhase), ("name", .string "Public")]),
    ("E", .dictionary [("buildConfigurationList", .string "C"), ("isa", .string Kind.nativeTarget),
      ("name", .string "App")]),
    ("P", .dictionary [("buildConfigurationList", .string "C"), ("isa", .string Kind.project)]),
    ("Y", .dictionary [("isa", .string Kind.fileReference), ("path", .string "x.h")]),
    ("Z", .dictionary [("isa", .string Kind.buildFile), ("productRef", .string "N")])]

theorem labels_say_what_ids_stand_for_crossed :
    Dict.Sorted crossedTable ∧ BuildFilesApart crossedTable ∧
      IsLabel crossedTable (some "Sample") "A" (some "x.h in Public") ∧
      IsLabel crossedTable (some "Sample") "M" (some "(null) in Sources") ∧
      IsLabel crossedTable (some "Sample") "C"
        (some "Build configuration list for PBXProject \"Sample\"") ∧
      IsLabel crossedTable (some "Sample") "N" none := by
  have hsorted : Dict.Sorted crossedTable := by decide
  have h : BuildFilesApart crossedTable := by decide
  have hlabels := labels_say_what_ids_stand_for hsorted h (some "Sample")
  exact ⟨hsorted, h, (hlabels "A" _).mp (by decide), (hlabels "M" _).mp (by decide),
    (hlabels "C" _).mp (by decide), (hlabels "N" _).mp (by decide)⟩

end Document

end XcodeProject
