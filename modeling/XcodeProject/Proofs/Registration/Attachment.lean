import Mathlib
import XcodeProject.Proofs.Project.EditRecords
import XcodeProject.Proofs.Registration.Ownership

/-!
# Every native target builds the files that were registered

When a file reference is made for a path, it is attached to all targets, one after the other.  A
target builds it if the first phase of the right kind that the target lists has an entry for it
(`Builds`).  That stays so for the rest of a run: lists only grow at their end, and what an id that
is in a list stands for does not change (`Inserts.builds`).  The second point needs the table to have
all ids that it lists, since an id without an object could come to have one.

In the other direction, no phase gets a second entry for a file.  Attaching looks for an entry before
it makes one, so no count of entries goes beyond what it was or beyond one (`Inserts.timesHeld_eq`,
`spans_enriches`).  A file that is new had no entries at all.
-/

namespace XcodeProject

open PropertyList (Value)

namespace Project

/-! ## Files in phases -/

/-- Every file that an entry of a phase may name is in the table. -/
def FileRefsClosed (p : Project) : Prop :=
  ∀ id file, p.objects.text? id "fileRef" = some file → Dict.contains p.objects file = true

lemma fileRefsClosed_iff (p : Project) :
    p.FileRefsClosed ↔ ∀ id ∈ Dict.keys p.objects, ∀ file ∈ p.objects.text? id "fileRef",
      Dict.contains p.objects file = true := by
  constructor
  · intro h id _ file hfile
    exact h id file hfile
  · intro h id file hfile
    obtain ⟨object, hobject, -⟩ := Option.bind_eq_some_iff.mp hfile
    have hid := (Dict.contains_eq_true_iff p.objects id).mp (contains_of_object? hobject)
    exact h id hid file hfile

instance (p : Project) : Decidable p.FileRefsClosed :=
  decidable_of_iff' _ (fileRefsClosed_iff p)

/-- The table has every id that is in a list or that names a file. -/
structure Closed (p : Project) : Prop where
  /-- The table is in order. -/
  sorted : Dict.Sorted p.objects
  /-- It has the ids in lists. -/
  references : p.ReferencesClosed
  /-- It has the files that are named. -/
  fileRefs : p.FileRefsClosed

lemma Closed.contains {p : Project} (h : p.Closed) {owner id : ObjectId} {key : String}
    (hkey : key ∈ listFields) (hid : id ∈ p.objects.ids owner key) :
    Dict.contains p.objects id = true :=
  h.references id (ObjectTable.mem_listings_of_ids hkey hid)

/-- The first phase of a kind that a target lists. -/
def firstPhase? (p : Project) (target : ObjectId) (kind : String) : Option ObjectId :=
  (p.objects.ids target "buildPhases").find? fun phase => p.objects.kind? phase = some kind

/-- How many entries of a phase are for a file. -/
def timesHeld (p : Project) (phase file : ObjectId) : Nat :=
  (p.objects.ids phase "files").countP fun entry => p.objects.text? entry "fileRef" = some file

/-- The first phase of a target that takes files with such a name has an entry for the file. -/
def Builds (p : Project) (target file : ObjectId) (fileName : String) : Prop :=
  ∃ phase entry, p.firstPhase? target (phaseKind fileName) = some phase ∧
    entry ∈ p.objects.ids phase "files" ∧ p.objects.text? entry "fileRef" = some file

lemma kind?_of_firstPhase? {p : Project} {target phase : ObjectId} {kind : String}
    (h : p.firstPhase? target kind = some phase) : p.objects.kind? phase = some kind := by
  simpa using List.find?_some h

lemma phaseHolds_iff {p : Project} {phase file : ObjectId} : p.phaseHolds phase file = true ↔
    ∃ entry ∈ p.objects.ids phase "files", p.objects.text? entry "fileRef" = some file := by
  simp [phaseHolds]

lemma timesHeld_eq_zero {p : Project} {phase file : ObjectId} :
    p.timesHeld phase file = 0 ↔ p.phaseHolds phase file = false := by
  rw [timesHeld, List.countP_eq_zero, Bool.eq_false_iff, ne_eq, phaseHolds_iff]
  simp

lemma ids_of_object? {p : Project} {id : ObjectId} {object : Object}
    (h : p.object? id = some object) (key : String) : p.objects.ids id key = object.ids key := by
  show ((p.object? id).map (Object.ids · key)).getD [] = _
  rw [h]
  rfl

/-! ## More insertions -/

end Project

lemma Insertion.text?_fileRef_eq_some {i : Insertion} {built : ObjectId} :
    i.object.text? "fileRef" = some built ↔ ∃ holder, i = .buildFile holder built := by
  cases i with
  | buildFile holder other =>
    show some other = some built ↔ _
    simp
  | group parent name path =>
    show none = some built ↔ _
    simp
  | file parent path =>
    show none = some built ↔ _
    simp
  | phase target kind =>
    show none = some built ↔ _
    simp

namespace Project

namespace Inserts

variable {p q : Project} {made : List Inserted}

lemma firstPhase?_eq (h : Inserts p made q) (hp : p.Closed) {target phase : ObjectId}
    {kind : String} (hphase : p.firstPhase? target kind = some phase) :
    q.firstPhase? target kind = some phase := by
  have hold : (p.objects.ids target "buildPhases").find?
      (fun other => q.objects.kind? other = some kind) = some phase := by
    rw [← hphase]
    refine List.find?_congr fun other hother => ?_
    have hsame : q.objects.kind? other = p.objects.kind? other :=
      h.text?_of_contains (hp.contains (by decide) hother) "isa"
    rw [hsame]
  rw [firstPhase?, h.ids_eq, List.find?_append, hold, Option.some_or]

/-- Objects of a kind that is not on record are those there were. -/
lemma kind?_eq_some_iff (h : Inserts p made q) {kind : String}
    (hkinds : ∀ m ∈ made, m.what.kind ≠ kind) (id : ObjectId) :
    q.objects.kind? id = some kind ↔ p.objects.kind? id = some kind := by
  by_cases hid : id ∈ made.map Inserted.id
  · obtain ⟨m, hm, rfl⟩ := List.mem_map.mp hid
    have hafter : q.objects.kind? m.id = some m.what.kind :=
      (h.text?_of_mem hm "isa").trans m.what.text?_isa
    have hbefore : p.objects.kind? m.id = Option.none := by
      show (p.object? m.id).bind (Object.text? · "isa") = Option.none
      rw [object?_of_contains_eq_false (h.nodup.2 m hm), Option.bind_none]
    simp [hafter, hbefore, hkinds m hm]
  · have hsame : q.objects.kind? id = p.objects.kind? id := h.text?_of_notMem hid "isa"
    rw [hsame]

/-- The first phase of a kind stays the first, unless phases were added or objects of the kind. -/
lemma firstPhase?_of_kinds (h : Inserts p made q) {kind : String}
    (hkinds : ∀ m ∈ made, m.what.kind ≠ kind) (hkeys : ∀ m ∈ made, m.what.key ≠ "buildPhases")
    (target : ObjectId) : q.firstPhase? target kind = p.firstPhase? target kind := by
  have hlisted : listedBy made target "buildPhases" = [] := by
    rw [listedBy, List.map_eq_nil_iff, List.filter_eq_nil_iff]
    intro m hm
    simp [hkeys m hm]
  rw [firstPhase?, firstPhase?, h.ids_eq, hlisted, List.append_nil]
  refine List.find?_congr fun other _ => ?_
  rw [decide_eq_decide]
  exact h.kind?_eq_some_iff hkinds other

/-- What a target builds it goes on to build. -/
lemma builds (h : Inserts p made q) (hp : p.Closed) {target file : ObjectId} {fileName : String}
    (hbuilds : p.Builds target file fileName) : q.Builds target file fileName := by
  obtain ⟨phase, entry, hphase, hentry, hfile⟩ := hbuilds
  refine ⟨phase, entry, h.firstPhase?_eq hp hphase, ?_, ?_⟩
  · rw [h.ids_eq]
    exact List.mem_append_left _ hentry
  · rw [h.text?_of_contains (hp.contains (by decide) hentry), hfile]

/-- Only build files that are listed make a difference to how often a file is in a phase. -/
lemma timesHeld_eq (h : Inserts p made q) (hp : p.Closed) (phase file : ObjectId) :
    q.timesHeld phase file = p.timesHeld phase file +
      made.countP fun m => m.linked ∧ m.what = .buildFile phase file := by
  unfold timesHeld
  rw [h.ids_eq, List.countP_append]
  congr 1
  · refine List.countP_congr fun entry hentry => ?_
    rw [h.text?_of_contains (hp.contains (by decide) hentry)]
  · rw [listedBy, List.countP_map, List.countP_filter]
    refine List.countP_congr fun m hm => ?_
    simp only [Function.comp_apply, h.text?_of_mem hm, Insertion.text?_fileRef_eq_some,
      decide_eq_true_eq, Bool.and_eq_true]
    constructor
    · rintro ⟨⟨holder, hwhat⟩, hlinked, howner, -⟩
      rw [hwhat] at howner
      exact ⟨hlinked, hwhat.trans (congrArg (Insertion.buildFile · file) howner)⟩
    · rintro ⟨hlinked, hwhat⟩
      rw [hwhat]
      exact ⟨⟨phase, rfl⟩, hlinked, rfl, rfl⟩

lemma closed (h : Inserts p made q) (hp : p.Closed)
    (hbuilt : ∀ m ∈ made, ∀ phase file, m.what = .buildFile phase file →
      Dict.contains q.objects file = true) : q.Closed := by
  refine ⟨h.sorted hp.sorted, h.referencesClosed hp.sorted hp.references, ?_⟩
  intro id file hfile
  by_cases hid : id ∈ made.map Inserted.id
  · obtain ⟨m, hm, rfl⟩ := List.mem_map.mp hid
    rw [h.text?_of_mem hm, Insertion.text?_fileRef_eq_some] at hfile
    obtain ⟨phase, hwhat⟩ := hfile
    exact hbuilt m hm phase file hwhat
  · rw [h.text?_of_notMem hid] at hfile
    exact (h.contains_iff file).mpr (.inl (hp.fileRefs id file hfile))

/-- What names a new file is a build file. -/
lemma kind?_of_fileRef (h : Inserts p made q) (hp : p.FileRefsClosed) {entry file : ObjectId}
    (hfile : Dict.contains p.objects file = false)
    (hentry : q.objects.text? entry "fileRef" = some file) :
    q.objects.kind? entry = some Kind.buildFile := by
  by_cases hid : entry ∈ made.map Inserted.id
  · obtain ⟨m, hm, rfl⟩ := List.mem_map.mp hid
    rw [h.text?_of_mem hm, Insertion.text?_fileRef_eq_some] at hentry
    obtain ⟨phase, hwhat⟩ := hentry
    have hkind := h.text?_of_mem hm "isa"
    rw [hwhat] at hkind
    exact hkind
  · rw [h.text?_of_notMem hid] at hentry
    rw [hp entry file hentry] at hfile
    cases hfile

end Inserts

/-! ## What every edit keeps -/

/-- The project has grown, with the ids it needs, and no phase has more than one entry for a file
unless it had as many. -/
def Enriches (p q : Project) : Prop :=
  p.Closed → q.Closed ∧ Develops p q ∧
    ∀ phase file, q.timesHeld phase file ≤ max (p.timesHeld phase file) 1

lemma Enriches.refl (p : Project) : Enriches p p :=
  fun hp => ⟨hp, .refl p, fun _ _ => le_max_left _ _⟩

instance : IsTrans Project Enriches := by
  refine ⟨fun p q q' h h' hp => ?_⟩
  obtain ⟨hq, hgrown, hheld⟩ := h hp
  obtain ⟨hq', hgrown', hheld'⟩ := h' hq
  refine ⟨hq', trans_of Develops hgrown hgrown', fun phase file => ?_⟩
  have hfirst := hheld phase file
  have hsecond := hheld' phase file
  omega

lemma spans_enriches : Spans Enriches where
  refl := .refl
  insert := by
    intro p i object hproper howner hadmits hp
    have hinserts := Inserts.next .none hproper howner
    refine ⟨hinserts.closed hp ?_, ⟨_, hinserts⟩, fun phase file => ?_⟩
    · intro m hm phase file hwhat
      obtain rfl := List.mem_singleton.mp hm
      obtain rfl : i = .buildFile phase file := hwhat
      exact (hinserts.contains_iff file).mpr (.inl hadmits.1)
    · rw [hinserts.timesHeld_eq hp, List.nil_append, List.countP_singleton]
      split
      · next h =>
        obtain rfl : i = .buildFile phase file := (of_decide_eq_true h).2
        rw [timesHeld_eq_zero.mpr hadmits.2]
        exact le_max_right _ _
      · exact le_max_left _ _

/-! ## Attaching a file -/

/-- The object under an id is a file reference with a path. -/
def IsFile (p : Project) (id : ObjectId) (path : String) : Prop :=
  p.objects.kind? id = some Kind.fileReference ∧ p.objects.text? id "path" = some path

lemma IsFile.fileReference? {p : Project} {id : ObjectId} {path : String} (h : p.IsFile id path) :
    ∃ reference, p.fileReference? id = some reference ∧ reference.text? "path" = some path := by
  obtain ⟨reference, hobject, hkind⟩ := Option.bind_eq_some_iff.mp h.1
  obtain ⟨found, hfound, hpath⟩ := Option.bind_eq_some_iff.mp h.2
  obtain rfl := Option.some.inj (hobject.symm.trans hfound)
  exact ⟨reference, Option.filter_eq_some_iff.mpr ⟨hobject, by simpa using hkind⟩, hpath⟩

lemma IsFile.inserts {p q : Project} {made : List Inserted} (hinserts : Inserts p made q)
    {id : ObjectId} {path : String} (h : p.IsFile id path) : q.IsFile id path :=
  ⟨hinserts.edits.text?_eq h.1, hinserts.edits.text?_eq h.2⟩

/-- The phase that a target has, or that is made for it, is its first one of the kind. -/
lemma firstPhase?_ensurePhase {p q : Project} {target : ObjectId} {path : String} {phase : Phase}
    (h : p.ensurePhase target (phaseKind path) = ⟨.ok phase, q⟩) :
    q.firstPhase? target (phaseKind path) = some phase.id := by
  rw [ensurePhase_eq] at h
  split at h
  · cases h
  next object hobject =>
  have hids := ids_of_object? hobject "buildPhases"
  split at h
  · next found hfound =>
    cases h
    rw [firstPhase?, hids, hfound]
  · next hnone =>
    obtain ⟨id, made, hinsert, hphase⟩ := Attempt.andThen_eq_ok h
    cases hphase
    have hinserts := inserts_of_insert_eq_ok (i := .phase target (phaseKind path)) ⟨path, rfl⟩
      hobject hinsert
    have hlast : q.objects.kind? id = some (phaseKind path) :=
      hinserts.text?_of_mem List.mem_cons_self "isa"
    -- None of the phases before is of the kind, except that the new id may have been in the list.
    have hbefore : ∀ other ∈ p.objects.ids target "buildPhases", other ≠ id →
        q.objects.kind? other ≠ some (phaseKind path) := by
      intro other hother hne
      have hsame : q.objects.kind? other = p.objects.kind? other :=
        hinserts.text?_of_notMem (by simpa using hne) "isa"
      rw [hids] at hother
      simpa [hsame] using List.find?_eq_none.mp hnone other hother
    have hlisted : id ∈ q.objects.ids target "buildPhases" := by
      rw [hinserts.ids_eq]
      simp [listedBy, Insertion.owner, Insertion.key]
    obtain ⟨found, hfound⟩ : ∃ found, q.firstPhase? target (phaseKind path) = some found :=
      Option.isSome_iff_exists.mp (List.find?_isSome.mpr ⟨id, hlisted, by simpa using hlast⟩)
    have hmem := List.mem_of_find?_eq_some hfound
    rw [hinserts.ids_eq, List.mem_append] at hmem
    obtain rfl : found = id := by
      by_contra hne
      rcases hmem with hmem | hmem
      · exact hbefore found hmem hne (kind?_of_firstPhase? hfound)
      · exact hne (by simpa [listedBy, Insertion.owner, Insertion.key] using hmem)
    exact hfound

lemma builds_addBuildFile {p q : Project} {target file : ObjectId} {fileName : String}
    {phase : Phase} {attachment : Attachment}
    (hphase : p.firstPhase? target (phaseKind fileName) = some phase.id)
    (h : p.addBuildFile phase file = ⟨.ok attachment, q⟩) : q.Builds target file fileName := by
  rcases inserts_addBuildFile (kind?_of_firstPhase? hphase) h with
    ⟨hholds, rfl, rfl⟩ | ⟨buildFile, rfl, hinserts⟩
  · obtain ⟨entry, hentry, hfile⟩ := phaseHolds_iff.mp hholds
    exact ⟨phase.id, entry, hphase, hentry, hfile⟩
  · -- A build file is not a phase, so it is not in the way of the phase that was the first.
    have hkind : Kind.buildFile ≠ phaseKind fileName := by
      rcases phaseKind_eq fileName with hkind | hkind <;> rw [hkind] <;> decide
    have hfirst : q.firstPhase? target (phaseKind fileName) =
        p.firstPhase? target (phaseKind fileName) :=
      hinserts.firstPhase?_of_kinds (by simpa [Insertion.kind] using hkind) (by simp [Insertion.key])
        target
    refine ⟨phase.id, buildFile, hfirst.trans hphase, ?_, ?_⟩
    · rw [hinserts.ids_eq]
      simp [listedBy, Insertion.owner, Insertion.key]
    · exact hinserts.text?_of_mem List.mem_cons_self "fileRef"

lemma builds_attach {p q : Project} {target : Target} {file : ObjectId} {reference : Object}
    {attachment : Attachment} (haccepts : target.acceptsFiles = true)
    (hreference : p.fileReference? file = some reference)
    (h : p.attach target file = ⟨.ok attachment, q⟩) :
    q.Builds target.id file ((reference.text? "path").getD "") := by
  unfold attach at h
  rw [if_pos haccepts, hreference] at h
  obtain ⟨phase, middle, hphase, hadd⟩ := Attempt.andThen_eq_ok h
  exact builds_addBuildFile (firstPhase?_ensurePhase hphase) hadd

end Project

/-! ## Registering -/

namespace Registrar

open Project

variable {r r' : Registrar}

lemma childIndex_eq_ok {group : ObjectId} {index : ChildIndex}
    (h : r.childIndex group = ⟨.ok index, r'⟩) :
    r'.project = r.project ∧ r'.targets = r.targets := by
  unfold childIndex at h
  split at h
  · cases h
    exact ⟨rfl, rfl⟩
  · split at h
    · cases h
    · cases h
      exact ⟨rfl, rfl⟩

lemma createFile_eq_ok {group file : ObjectId} {index : ChildIndex} {fileName : String}
    (h : r.createFile group index fileName = ⟨.ok file, r'⟩) :
    r.project.newFile group fileName = ⟨.ok file, r'.project⟩ ∧ r'.targets = r.targets := by
  unfold createFile at h
  split at h
  · cases h
  · next id p hnew =>
    cases h
    exact ⟨hnew, rfl⟩

lemma builds_attachAll (hr : r.project.Closed) {file : ObjectId} {fileName : String}
    {targets : List Target} (hsub : ∀ target ∈ targets, target ∈ r.targets) {names : List String}
    (hfile : r.project.IsFile file fileName)
    (h : attachAll file fileName targets r = ⟨.ok names, r'⟩) :
    ∀ target ∈ targets, target.acceptsFiles = true →
      r'.project.Builds target.id file fileName := by
  induction targets generalizing r names with
  | nil => simp
  | cons target rest ih =>
    rw [attachAll] at h
    split at h
    · cases h
    next attachment p hattach =>
    obtain ⟨others, last, hrest, hlast⟩ := Attempt.andThen_eq_ok h
    cases hlast
    have hsub := (List.forall_mem_cons.mp hsub).2
    obtain ⟨hp, ⟨made, hmade⟩, -⟩ := spans_enriches.attach r.project target file hr
    rw [hattach] at hp hmade
    refine List.forall_mem_cons.mpr ⟨fun haccepts => ?_, ?_⟩
    · obtain ⟨-, ⟨more, hmore⟩, -⟩ := ((spans_enriches.covers r.targets).attachAll file fileName hsub
        ({ r with project := p }.record (attachmentEvents target fileName attachment)) rfl).2 hp
      rw [hrest] at hmore
      obtain ⟨reference, hreference, hpath⟩ := hfile.fileReference?
      have hbuilds := builds_attach haccepts hreference hattach
      rw [hpath] at hbuilds
      exact hmore.builds hp hbuilds
    · refine ih (r := { r with project := p }.record _) hp hsub ?_ hrest
      exact hfile.inserts hmade

/-- A file reference that was made is a new object, and the targets build it. -/
lemma builds_registerFile (hr : r.project.Closed) {path fileName : String} {group : ObjectId}
    {created : List String} {registration : Registration}
    (h : r.registerFile path group fileName created = ⟨.ok registration, r'⟩)
    (hcreated : registration.outcome = .created) :
    ∃ file, registration.file = some file ∧ Dict.contains r.project.objects file = false ∧
      ∀ target ∈ r.targets, target.acceptsFiles = true →
        r'.project.Builds target.id file fileName := by
  unfold registerFile at h
  obtain ⟨index, r₁, hindex, h⟩ := Attempt.andThen_eq_ok h
  obtain ⟨hproject, htargets⟩ := childIndex_eq_ok hindex
  split at h
  · cases h
    cases hcreated
  obtain ⟨file, r₂, hcreate, h⟩ := Attempt.andThen_eq_ok h
  obtain ⟨hnew, htargets'⟩ := createFile_eq_ok hcreate
  obtain ⟨names, r₃, hattach, h⟩ := Attempt.andThen_eq_ok h
  cases h
  rw [hproject, newFile_eq] at hnew
  split at hnew
  · cases hnew
  next object hgroup =>
  have hinserts := inserts_of_insert_eq_ok (i := .file group fileName) trivial
    (group_eq_ok.mp hgroup).1 hnew
  have hfile : r₂.project.IsFile file fileName :=
    ⟨hinserts.text?_of_mem List.mem_cons_self "isa",
      hinserts.text?_of_mem List.mem_cons_self "path"⟩
  have hclosed : r₂.project.Closed := hinserts.closed hr (by simp)
  refine ⟨file, rfl, hinserts.nodup.2 _ List.mem_cons_self, ?_⟩
  intro target htarget
  rw [← htargets, ← htargets'] at htarget
  exact builds_attachAll hclosed (fun _ hmem => hmem) hfile hattach target htarget

/-- What is to be true of a path that a file reference was made for: the reference is not in one
project, and the targets build it in another one. -/
def Attached (p p' : Project) (targets : List Target) (path : String)
    (registration : Registration) : Prop :=
  registration.outcome = .created → ∃ parts file, Path.split path = some parts ∧
    registration.file = some file ∧ Dict.contains p.objects file = false ∧
    ∀ target ∈ targets, target.acceptsFiles = true → p'.Builds target.id file parts.fileName

lemma attached_register (hr : r.project.Closed) {path : String} {registration : Registration}
    (h : r.register path = ⟨.ok registration, r'⟩) :
    Attached r.project r'.project r.targets path registration := by
  intro hcreated
  unfold register at h
  split at h
  · cases h
    cases hcreated
  next parts hsplit =>
  obtain ⟨⟨way, made⟩, r₁, hdescend, h⟩ := Attempt.andThen_eq_ok h
  have hgrown := (spans_enriches.covers r.targets).descend r.project.mainGroup [] []
    parts.directories r rfl
  rw [hdescend] at hgrown
  obtain ⟨htargets, hproject⟩ := hgrown
  obtain ⟨hclosed, ⟨more, hmore⟩, -⟩ := hproject hr
  simp only at h
  split at h
  · cases h
    cases hcreated
  · obtain ⟨file, hfile, hnew, hbuilds⟩ := builds_registerFile hclosed h hcreated
    exact ⟨parts, file, hsplit, hfile, hmore.contains_eq_false hnew, htargets ▸ hbuilds⟩

lemma attached_registerAll (hr : r.project.Closed) {paths : List String}
    {registrations : List Registration} (h : registerAll paths r = ⟨.ok registrations, r'⟩) :
    List.Forall₂ (Attached r.project r'.project r.targets) paths registrations := by
  induction paths generalizing r registrations with
  | nil =>
    cases h
    exact .nil
  | cons path rest ih =>
    rw [registerAll] at h
    obtain ⟨registration, r₁, hfirst, h⟩ := Attempt.andThen_eq_ok h
    obtain ⟨others, r₂, hrest, h⟩ := Attempt.andThen_eq_ok h
    cases h
    have hgrown := (spans_enriches.covers r.targets).register r path rfl
    rw [hfirst] at hgrown
    obtain ⟨htargets, hproject⟩ := hgrown
    obtain ⟨hclosed, ⟨made, hmade⟩, -⟩ := hproject hr
    obtain ⟨-, ⟨more, hmore⟩, -⟩ :=
      ((spans_enriches.covers r₁.targets).registerAll rest r₁ rfl).2 hclosed
    rw [hrest] at hmore
    refine .cons ?_ ((ih hclosed hrest).imp ?_)
    · -- What the targets build after the first path they build at the end.
      intro hcreated
      obtain ⟨parts, file, hsplit, hfile, hnew, hbuilds⟩ := attached_register hr hfirst hcreated
      refine ⟨parts, file, hsplit, hfile, hnew, ?_⟩
      intro target htarget haccepts
      exact hmore.builds hclosed (hbuilds target htarget haccepts)
    · intro other result hattached hcreated
      obtain ⟨parts, file, hsplit, hfile, hnew, hbuilds⟩ := hattached hcreated
      exact ⟨parts, file, hsplit, hfile, hmade.contains_eq_false hnew, htargets ▸ hbuilds⟩

end Registrar

/-! ## A whole run -/

namespace Project

lemma registerAll_of_register {p : Project} {paths : List String} {report : Report}
    (h : (p.register paths).result = .ok report) : ∃ r,
      Registrar.registerAll paths (.ofProject p) = ⟨.ok report.paths, r⟩ ∧
        (p.register paths).state = r.project := by
  unfold register at h ⊢
  generalize Registrar.registerAll paths (.ofProject p) = attempt at h ⊢
  obtain ⟨result, r⟩ := attempt
  cases result with
  | error e => cases h
  | ok registrations =>
    cases h
    exact ⟨r, rfl, rfl⟩

lemma timesHeld_eq_zero_of_new {p : Project} (hp : p.FileRefsClosed) {file : ObjectId}
    (hfile : Dict.contains p.objects file = false) (phase : ObjectId) :
    p.timesHeld phase file = 0 := by
  rw [timesHeld, List.countP_eq_zero]
  intro entry _ hentry
  rw [hp entry file (of_decide_eq_true hentry)] at hfile
  cases hfile

lemma mem_buildFiles {p : Project} {target phase entry file : ObjectId} {kind : String}
    (hphase : p.firstPhase? target kind = some phase) (hentry : entry ∈ p.objects.ids phase "files")
    (hfile : p.objects.text? entry "fileRef" = some file) : file ∈ p.buildFiles target := by
  refine List.mem_flatMap.mpr ⟨phase, List.mem_of_find?_eq_some hphase, ?_⟩
  exact List.mem_filterMap.mpr ⟨entry, hentry, hfile⟩

/-- If a file reference was made for the path, every native target has it in the first phase for
such files, through a build file, and no phase has it twice. -/
def BuiltEverywhere (p : Project) (path : String) (registration : Registration) : Prop :=
  registration.outcome = .created →
    ∃ parts file, Path.split path = some parts ∧ registration.file = some file ∧
      (∀ target ∈ p.targets, target.kind = Kind.nativeTarget →
        (∃ phase entry, p.firstPhase? target.id (phaseKind parts.fileName) = some phase ∧
          entry ∈ p.objects.ids phase "files" ∧
          p.objects.kind? entry = some Kind.buildFile ∧
          p.objects.text? entry "fileRef" = some file) ∧
        file ∈ p.buildFiles target.id) ∧
      ∀ phase, p.timesHeld phase file ≤ 1

/-- In a loaded project that has the objects it refers to, the files that registration makes are
built by every native target, and by none of its phases twice.  An object that is not a native target
keeps its list of phases. -/
theorem new_files_reach_every_target {text path : String} {p : Project}
    (hload : load text path = .ok p) (hreferences : p.ReferencesClosed)
    (hfileRefs : p.FileRefsClosed) {paths : List String} {report : Report}
    (hreport : (p.register paths).result = .ok report) :
    List.Forall₂ (p.register paths).state.BuiltEverywhere paths report.paths ∧
    ∀ id object, p.object? id = some object → object.kind ≠ Kind.nativeTarget →
      ∃ object', (p.register paths).state.object? id = some object' ∧
        object'.lookup "buildPhases" = object.lookup "buildPhases" := by
  have hsorted := (PropertyList.Value.canonical_dictionary.mp (loadable_of_load hload).1.objects).1
  have hclosed : p.Closed := ⟨hsorted, hreferences, hfileRefs⟩
  constructor
  · obtain ⟨-, ⟨made, hmade⟩, hheld⟩ :=
      ((spans_enriches.covers p.targets).registerAll paths (.ofProject p) rfl).2 hclosed
    have htargets := (edits_register p paths).targets_eq (by decide)
    obtain ⟨r, hrun, hstate⟩ := registerAll_of_register hreport
    have hattached := Registrar.attached_registerAll hclosed hrun
    rw [← hstate] at hattached
    refine hattached.imp ?_
    intro path registration hpath hcreated
    obtain ⟨parts, file, hsplit, hfile, hnew, hbuilds⟩ := hpath hcreated
    refine ⟨parts, file, hsplit, hfile, ?_, ?_⟩
    · intro target htarget hnative
      rw [htargets] at htarget
      obtain ⟨phase, entry, hphase, hentry, hbuilt⟩ :=
        hbuilds target htarget (decide_eq_true hnative)
      exact ⟨⟨phase, entry, hphase, hentry, hmade.kind?_of_fileRef hfileRefs hnew hbuilt, hbuilt⟩,
        mem_buildFiles hphase hentry hbuilt⟩
    · intro phase
      have hphase := hheld phase file
      have hnone : (Registrar.ofProject p).project.timesHeld phase file = 0 :=
        timesHeld_eq_zero_of_new hfileRefs hnew phase
      rw [hnone] at hphase
      exact hphase
  · intro id object hobject hkind
    obtain ⟨object', hobject', hextends⟩ := (additions_register p paths).extends.object? hobject
    refine ⟨object', hobject', hextends.lookup_eq ?_⟩
    intro hlist
    have hall : ∀ list ∈ registeredLists, list.2 = "buildPhases" → list.1 = Kind.nativeTarget := by
      decide
    exact hkind (hall _ hlist rfl)

/-- Two native targets that share a phase, and a target that builds nothing. -/
def sharingProject : Project :=
  let phases := Value.array [.string "PHASE"]
  let entries := [("APP", Value.dictionary [("buildPhases", phases),
      ("isa", .string Kind.nativeTarget), ("name", .string "App")]),
    ("DOCS", .dictionary [("buildPhases", phases), ("isa", .string Kind.aggregateTarget)]),
    ("PHASE", .dictionary [("isa", .string Kind.headersPhase)]),
    ("PROJECT", .dictionary [("isa", .string Kind.project), ("mainGroup", .string "MAIN"),
      ("targets", .array [.string "TARGET", .string "APP", .string "DOCS", .string "APP"])]),
    ("TARGET", .dictionary [("buildPhases", phases), ("isa", .string Kind.nativeTarget)])]
  entries.foldl (fun p entry => p.setObject entry.1 entry.2) sampleProject

lemma loadable_sharingProject : sharingProject.Loadable := by
  decide

theorem new_files_reach_every_target_sharing :
    load sharingProject.write sharingProject.path = .ok sharingProject ∧
    sharingProject.ReferencesClosed ∧ sharingProject.FileRefsClosed ∧
    ∃ report, (sharingProject.register samplePaths).result = .ok report ∧
      report.filesCreated = 1 ∧
      List.Forall₂ (sharingProject.register samplePaths).state.BuiltEverywhere samplePaths
        report.paths ∧
      ∃ object object', sharingProject.object? "DOCS" = some object ∧
        (sharingProject.register samplePaths).state.object? "DOCS" = some object' ∧
        object'.lookup "buildPhases" = object.lookup "buildPhases" := by
  have hload := load_write loadable_sharingProject (by decide)
  have hreferences : sharingProject.ReferencesClosed := by decide
  have hfileRefs : sharingProject.FileRefsClosed := by decide
  have hcount : (sharingProject.register samplePaths).result.toOption.map Report.filesCreated =
      some 1 := by decide +kernel
  obtain ⟨report, hresult, hone⟩ := Option.map_eq_some_iff.mp hcount
  have hreport := Attempt.result_eq_ok hresult
  obtain ⟨hbuilt, hkept⟩ := new_files_reach_every_target hload hreferences hfileRefs hreport
  have hdocs : sharingProject.objects.kind? "DOCS" = some Kind.aggregateTarget := by decide
  obtain ⟨object, hobject, hkind⟩ := object?_of_kind? hdocs
  obtain ⟨object', hobject', hphases⟩ := hkept "DOCS" object hobject (by rw [hkind]; decide)
  exact ⟨hload, hreferences, hfileRefs, report, hreport, hone, hbuilt, object, object', hobject,
    hobject', hphases⟩

end Project

end XcodeProject
