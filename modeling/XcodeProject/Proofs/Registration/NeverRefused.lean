import Mathlib
import XcodeProject.Proofs.Project.EditRecords
import XcodeProject.Proofs.Registration.Attachment

/-!
# Registration is not refused

Edits are refused when the object they are about is missing or of the wrong kind, or when what
stands where a list should be is something else.  Registration looks up an object many times in a
run, and each time something that was done before makes sure that it is there: loading has checked
the main group, a group on the way down comes from the children of the one before or has just been
made, the targets were read from the table, and a file is attached when it has just been made.  So
only the lists are left, and these are for the project to get right (`WellShaped`).

The conditions are those of a registrar that is `Ready`.  Each step of a run is shown to come to a
result, with a registrar that is ready for the next step (`Attempt.Yields`).  Nothing is asked about
the ids in lists: they may have no object, and groups may contain each other.
-/

namespace XcodeProject

open PropertyList (Value)

/-- The attempt is not refused, and what comes of it is as `post` says. -/
def Attempt.Yields {State α : Type} (attempt : Attempt State α) (post : α → State → Prop) : Prop :=
  ∃ made s, attempt = ⟨.ok made, s⟩ ∧ post made s

namespace Attempt.Yields

variable {State α β : Type} {attempt : Attempt State α} {post post' : α → State → Prop}

lemma of_ok {made : α} {s : State} (h : post made s) : Yields ⟨.ok made, s⟩ post :=
  ⟨made, s, rfl, h⟩

lemma mono (h : attempt.Yields post)
    (hpost : ∀ made s, attempt = ⟨.ok made, s⟩ → post made s → post' made s) :
    attempt.Yields post' := by
  obtain ⟨made, s, hattempt, hmade⟩ := h
  exact ⟨made, s, hattempt, hpost made s hattempt hmade⟩

lemma andThen {next : α → State → Attempt State β} {last : β → State → Prop}
    (h : attempt.Yields post) (hnext : ∀ made s, post made s → (next made s).Yields last) :
    (attempt.andThen next).Yields last := by
  obtain ⟨made, s, rfl, hmade⟩ := h
  exact hnext made s hmade

end Attempt.Yields

/-! ## Lists that are lists -/

/-- What stands where registration puts ids is a list. -/
def Object.WellShaped (object : Object) : Prop :=
  ∀ key, IsRegisteredList object.kind key →
    ∀ value, object.lookup key = some value → ∃ items, value = .array items

namespace Object.WellShaped

variable {object object' : Object}

lemma exists_items (h : object.WellShaped) {key : String}
    (hkey : IsRegisteredList object.kind key) :
    ∃ items, (object.lookup key).getD (.array []) = .array items := by
  cases hlookup : object.lookup key with
  | none => exact ⟨[], rfl⟩
  | some value => exact h key hkey value hlookup

/-- A list that has grown is a list. -/
lemma of_extends {allowed : String → Prop} {isNew : ObjectId → Prop} (h : object.WellShaped)
    (hextends : object.Extends allowed isNew object') : object'.WellShaped := by
  intro key hkey value hvalue
  rw [hextends.kind_eq] at hkey
  rcases hextends key with hsame | ⟨-, items, ids, -, hlookup, -⟩
  · rw [hsame] at hvalue
    exact h key hkey value hvalue
  · rw [hlookup] at hvalue
    exact ⟨_, (Option.some.inj hvalue).symm⟩

lemma of_newObject (h : Project.NewObject object) : object.WellShaped := by
  have hlists : ∀ entry ∈ object, entry.1 ∈ listFields → entry.2 = .array [] := by
    cases h <;> simp [Project.groupObject, Project.fileObject, Project.phaseObject,
      Project.buildFileObject, listFields]
  intro key hkey value hvalue
  exact ⟨[], hlists _ (Dict.mem_of_lookup hvalue) hkey.mem_listFields⟩

end Object.WellShaped

lemma Object.wellShaped_iff (object : Object) :
    object.WellShaped ↔ ∀ list ∈ registeredLists, list.1 = object.kind →
      ∀ value ∈ object.lookup list.2, value.array?.isSome = true := by
  have harray : ∀ value : Value, value.array?.isSome = true ↔ ∃ items, value = .array items := by
    intro value
    cases value <;> simp [Value.array?]
  constructor
  · rintro h ⟨kind, key⟩ hlist rfl value hvalue
    exact (harray value).mpr (h key hlist value hvalue)
  · intro h key hkey value hvalue
    exact (harray value).mp (h _ hkey rfl value hvalue)

instance (object : Object) : Decidable object.WellShaped :=
  decidable_of_iff' _ object.wellShaped_iff

namespace Project

variable {p q : Project}

/-- The lists of groups, native targets and phases that registration puts ids into are lists, where
they are there. -/
def WellShaped (p : Project) : Prop :=
  ∀ id object, p.object? id = some object → object.WellShaped

instance (p : Project) : Decidable p.WellShaped :=
  decidable_of_iff' _ (p.forall_object?_iff fun _ object => object.WellShaped)

lemma WellShaped.inserts (h : p.WellShaped) {made : List Inserted} (hmade : Inserts p made q) :
    q.WellShaped := by
  have hextends := hmade.additions.extends
  intro id object' hobject'
  have hafter := ObjectTable.object?_eq_some.mp hobject'
  cases hbefore : p.objects.lookup id with
  | none =>
    obtain ⟨object, hnew, found, hfound, hgrown⟩ := hextends.new id _ hbefore hafter
    cases hfound
    exact (Object.WellShaped.of_newObject hnew).of_extends hgrown
  | some value =>
    obtain ⟨value', hvalue', hgrown⟩ := hextends.old id value hbefore
    obtain rfl := Option.some.inj (hafter.symm.trans hvalue')
    cases value with
    | string text => cases hgrown
    | array items => cases hgrown
    | dictionary object =>
      obtain ⟨found, hfound, hgrown⟩ := hgrown
      cases hfound
      exact (h id object (ObjectTable.object?_eq_some.mpr hbefore)).of_extends hgrown

/-- The object under an id is a group. -/
def IsGroup (p : Project) (id : ObjectId) : Prop :=
  ∃ object, p.object? id = some object ∧ object.kind ∈ Kind.groups

lemma IsGroup.inserts {id : ObjectId} (h : p.IsGroup id) {made : List Inserted}
    (hmade : Inserts p made q) : q.IsGroup id := by
  obtain ⟨object, hobject, hkind⟩ := h
  obtain ⟨object', hobject', hextends⟩ := hmade.additions.extends.object? hobject
  exact ⟨object', hobject', hextends.kind_eq ▸ hkind⟩

lemma isGroup_of_kind? {id : ObjectId} {kind : String} (h : p.objects.kind? id = some kind)
    (hkind : kind ∈ Kind.groups) : p.IsGroup id := by
  obtain ⟨object, hobject, rfl⟩ := object?_of_kind? h
  exact ⟨object, hobject, hkind⟩

/-- Among the children of a group is a group with a path. -/
structure HoldsGroup (p : Project) (parent : ObjectId) (directory : String) (child : ObjectId) :
    Prop where
  /-- The parent lists it. -/
  listed : child ∈ p.objects.ids parent "children"
  /-- It is a group. -/
  isGroup : p.IsGroup child
  /-- It has the path. -/
  path_eq : p.objects.text? child "path" = some directory

lemma HoldsGroup.inserts {parent child : ObjectId} {directory : String}
    (h : p.HoldsGroup parent directory child) {made : List Inserted}
    (hmade : Inserts p made q) : q.HoldsGroup parent directory child where
  listed := by
    rw [hmade.ids_eq]
    exact List.mem_append_left _ h.listed
  isGroup := h.isGroup.inserts hmade
  path_eq := hmade.edits.text?_eq h.path_eq

lemma holdsGroup_of_newGroup {parent id : ObjectId} {name directory : String}
    (h : p.newGroup parent name directory = ⟨.ok id, q⟩) : q.HoldsGroup parent directory id := by
  have hmade := inserts_newGroup h
  refine ⟨?_, ?_, hmade.text?_of_mem List.mem_cons_self "path"⟩
  · rw [hmade.ids_eq]
    simp [listedBy, Insertion.owner, Insertion.key]
  · exact isGroup_of_kind? (hmade.text?_of_mem List.mem_cons_self "isa") List.mem_cons_self

/-- The groups that a group lists by path are among its children. -/
lemma holdsGroup_of_children {group id : ObjectId} {nodes : List Node} {directory : String}
    (h : p.children group = .ok nodes)
    (hid : (ChildIndex.ofNodes nodes).groups.lookup directory = some id) :
    p.HoldsGroup group directory id := by
  obtain ⟨object, hobject, -, rfl⟩ := children_eq_ok.mp h
  rw [ChildIndex.lookup_groups] at hid
  obtain ⟨node, hnode, rfl⟩ := Option.map_eq_some_iff.mp hid
  obtain ⟨child, hchild, hnode?⟩ := List.mem_filterMap.mp (List.mem_of_find?_eq_some hnode)
  obtain ⟨found, hfound, rfl⟩ := Option.map_eq_some_iff.mp hnode?
  have hmatches : (Node.ofObject child found).Matches .group directory := by
    simpa using List.find?_some hnode
  refine ⟨?_, ⟨found, hfound, ofKind_eq_group.mp hmatches.1⟩, ?_⟩
  · rw [ids_of_object? hobject]
    exact hchild
  · exact Option.bind_eq_some_iff.mpr ⟨found, hfound, hmatches.2⟩

/-! ## Edits -/

/-- An insertion is not refused if its owner has a list for it. -/
lemma insert_yields (hp : p.WellShaped) {i : Insertion} {object : Object} (hproper : i.Proper)
    (howner : p.object? i.owner = some object) (hlist : IsRegisteredList object.kind i.key) :
    (p.insert i).Yields fun id q => Inserts p [⟨i, id, true⟩] q := by
  obtain ⟨items, hitems⟩ := (hp _ object howner).exists_items hlist
  obtain ⟨id, q, hinsert⟩ := exists_insert_eq_ok howner hitems
  exact ⟨id, q, hinsert, inserts_of_insert_eq_ok hproper howner hinsert⟩

lemma newGroup_yields (hp : p.WellShaped) {parent : ObjectId} (hparent : p.IsGroup parent)
    (name path : String) : (p.newGroup parent name path).Yields fun id q =>
      Inserts p [⟨.group parent name path, id, true⟩] q := by
  obtain ⟨object, hobject, hkind⟩ := hparent
  rw [newGroup_eq, group_eq_ok.mpr ⟨hobject, hkind⟩]
  exact insert_yields hp trivial hobject (isRegisteredList_children hkind)

lemma newFile_yields (hp : p.WellShaped) {parent : ObjectId} (hparent : p.IsGroup parent)
    (path : String) : (p.newFile parent path).Yields fun id q =>
      Inserts p [⟨.file parent path, id, true⟩] q := by
  obtain ⟨object, hobject, hkind⟩ := hparent
  rw [newFile_eq, group_eq_ok.mpr ⟨hobject, hkind⟩]
  exact insert_yields hp trivial hobject (isRegisteredList_children hkind)

lemma ensurePhase_yields (hp : p.WellShaped) {target : ObjectId}
    (htarget : p.objects.kind? target = some Kind.nativeTarget) (path : String) :
    (p.ensurePhase target (phaseKind path)).Yields fun phase q =>
      Inserts p (phase.record target) q ∧ q.objects.kind? phase.id = some (phaseKind path) := by
  obtain ⟨object, hobject, hkind⟩ := object?_of_kind? htarget
  have hok : (p.ensurePhase target (phaseKind path)).Yields fun _ _ => True := by
    rw [ensurePhase_eq, hobject]
    simp only
    split
    · exact .of_ok trivial
    · have hlist : IsRegisteredList object.kind "buildPhases" := by
        rw [hkind]
        show (Kind.nativeTarget, "buildPhases") ∈ registeredLists
        decide
      refine (insert_yields (i := .phase target (phaseKind path)) hp ⟨path, rfl⟩ hobject
        hlist).andThen ?_
      intro id q _
      exact .of_ok trivial
  refine hok.mono ?_
  intro phase q hphase _
  exact ⟨inserts_ensurePhase hphase, kind?_ensurePhase hphase⟩

lemma addBuildFile_yields (hp : p.WellShaped) {phase : Phase} {path : String}
    (hphase : p.objects.kind? phase.id = some (phaseKind path)) (file : ObjectId) :
    (p.addBuildFile phase file).Yields fun _ q => ∃ made, Inserts p made q := by
  obtain ⟨object, hobject, hkind⟩ := object?_of_kind? hphase
  rw [addBuildFile_eq]
  split
  · exact .of_ok ⟨[], .none⟩
  · have hlist : IsRegisteredList object.kind "files" := hkind ▸ isRegisteredList_files path
    refine (insert_yields (i := .buildFile phase.id file) hp trivial hobject hlist).andThen ?_
    intro id q hinserts
    exact .of_ok ⟨_, hinserts⟩

lemma attach_yields (hp : p.WellShaped) {target : Target} {file : ObjectId} {path : String}
    (htarget : target.acceptsFiles = true → p.objects.kind? target.id = some Kind.nativeTarget)
    (hfile : p.IsFile file path) :
    (p.attach target file).Yields fun _ q => ∃ made, Inserts p made q := by
  obtain ⟨reference, hreference, -⟩ := hfile.fileReference?
  unfold attach
  split
  · next haccepts =>
    rw [hreference]
    refine (ensurePhase_yields hp (htarget haccepts) _).andThen ?_
    rintro phase q ⟨hphase, hkind⟩
    refine (addBuildFile_yields (hp.inserts hphase) hkind file).mono ?_
    rintro attachment q' - ⟨made, hmade⟩
    exact ⟨_, hphase.trans hmade⟩
  · exact .of_ok ⟨[], .none⟩

end Project

/-! ## A run -/

namespace Registrar

open Project

variable {r : Registrar}

/-- What the index of a group has for directories are groups. -/
def GroupsIn (p : Project) (index : ChildIndex) : Prop :=
  ∀ directory id, index.groups.lookup directory = some id → p.IsGroup id

/-- Whatever the registrar looks up is there. -/
structure Ready (r : Registrar) : Prop where
  /-- The lists of the project are lists. -/
  shaped : r.project.WellShaped
  /-- The targets are those of the project. -/
  native : NativeIn r.project r.targets
  /-- There is a main group. -/
  main : r.project.IsGroup r.project.mainGroup
  /-- The groups that are remembered are there. -/
  known : ∀ group index, r.index.lookup group = some index → GroupsIn r.project index

lemma GroupsIn.inserts {p q : Project} {index : ChildIndex} (h : GroupsIn p index)
    {made : List Inserted} (hmade : Inserts p made q) : GroupsIn q index :=
  fun directory id hid => (h directory id hid).inserts hmade

/-- The children of a group that count as groups are groups. -/
lemma groupsIn_ofNodes {p : Project} {group : ObjectId} {nodes : List Node}
    (h : p.children group = .ok nodes) : GroupsIn p (.ofNodes nodes) :=
  fun _ _ hid => (holdsGroup_of_children h hid).isGroup

namespace Ready

lemma record (h : r.Ready) (events : List Event) : (r.record events).Ready :=
  ⟨h.shaped, h.native, h.main, h.known⟩

lemma inserts (h : r.Ready) {q : Project} {made : List Inserted}
    (hmade : Inserts r.project made q) : { r with project := q }.Ready where
  shaped := h.shaped.inserts hmade
  native target htarget haccepts := hmade.edits.text?_eq (h.native target htarget haccepts)
  main := by
    have hmain : q.mainGroup = r.project.mainGroup := by rw [hmade.edits.frame]
    show q.IsGroup q.mainGroup
    rw [hmain]
    exact h.main.inserts hmade
  known group index hindex := (h.known group index hindex).inserts hmade

lemma remember (h : r.Ready) {index : ChildIndex} (hindex : GroupsIn r.project index)
    (group : ObjectId) : { r with index := Dict.insert r.index group index }.Ready where
  shaped := h.shaped
  native := h.native
  main := h.main
  known other found hfound := by
    simp only [Dict.lookup_insert] at hfound
    split at hfound
    · cases hfound
      exact hindex
    · exact h.known other found hfound

lemma childIndex (h : r.Ready) {group : ObjectId} (hgroup : r.project.IsGroup group) :
    (r.childIndex group).Yields fun index r' =>
      r'.Ready ∧ r'.project = r.project ∧ GroupsIn r.project index := by
  unfold Registrar.childIndex
  split
  · next index hindex => exact .of_ok ⟨h, rfl, h.known group index hindex⟩
  · obtain ⟨object, hobject, hkind⟩ := hgroup
    have hchildren := children_eq_ok.mpr ⟨object, hobject, hkind, rfl⟩
    have hindex := groupsIn_ofNodes hchildren
    rw [hchildren]
    exact .of_ok ⟨(h.remember hindex group).record _, rfl, hindex⟩

lemma createGroup (h : r.Ready) {parent : ObjectId} (hparent : r.project.IsGroup parent)
    {index : ChildIndex} (hindex : GroupsIn r.project index) (directory : String) :
    (r.createGroup parent index directory).Yields fun id r' =>
      r'.Ready ∧ r'.project.IsGroup id := by
  obtain ⟨id, q, hnew, hmade⟩ := newGroup_yields h.shaped hparent directory directory
  have hgroup : q.IsGroup id := (holdsGroup_of_newGroup hnew).isGroup
  have hknown : GroupsIn q { index with groups := Dict.insert index.groups directory id } := by
    intro other found hfound
    simp only [Dict.lookup_insert] at hfound
    split at hfound
    · cases hfound
      exact hgroup
    · exact (hindex.inserts hmade) other found hfound
  have hempty : GroupsIn q .empty := by
    intro other found hfound
    cases hfound
  unfold Registrar.createGroup
  rw [hnew]
  exact .of_ok ⟨(((h.inserts hmade).remember hknown parent).remember hempty id).record _, hgroup⟩

lemma createFile (h : r.Ready) {parent : ObjectId} (hparent : r.project.IsGroup parent)
    {index : ChildIndex} (hindex : GroupsIn r.project index) (fileName : String) :
    (r.createFile parent index fileName).Yields fun id r' =>
      r'.Ready ∧ r'.project.IsFile id fileName := by
  obtain ⟨id, q, hnew, hmade⟩ := newFile_yields h.shaped hparent fileName
  have hfile : q.IsFile id fileName :=
    ⟨hmade.text?_of_mem List.mem_cons_self "isa", hmade.text?_of_mem List.mem_cons_self "path"⟩
  have hknown : GroupsIn q { index with files := Dict.insert index.files fileName id } :=
    hindex.inserts hmade
  unfold Registrar.createFile
  rw [hnew]
  exact .of_ok ⟨((h.inserts hmade).remember hknown parent).record _, hfile⟩

/-- The way down ends in a group, unless it ends in a synchronized folder. -/
lemma descend (h : r.Ready) {group : ObjectId} (hgroup : r.project.IsGroup group)
    (walked created directories : List String) :
    (Registrar.descend group walked created directories r).Yields fun way r' =>
      r'.Ready ∧ ∀ last, way.1 = .toGroup last → r'.project.IsGroup last := by
  induction directories generalizing group walked created r with
  | nil =>
    refine .of_ok ⟨h, ?_⟩
    rintro last ⟨⟩
    exact hgroup
  | cons directory rest ih =>
    rw [Registrar.descend]
    refine (h.childIndex hgroup).andThen ?_
    rintro index r' ⟨h', hproject, hindex⟩
    rw [← hproject] at hgroup hindex
    simp only
    -- The next group is one of the index or a new one; below a folder there is no next one.
    split
    · next next hnext => exact ih h' (hindex directory next hnext) _ _
    · refine .of_ok ⟨h', ?_⟩
      rintro last ⟨⟩
    · refine (h'.createGroup hgroup hindex directory).andThen ?_
      rintro next r'' ⟨h'', hnext⟩
      exact ih h'' hnext _ _

lemma attachAll (h : r.Ready) {file : ObjectId} {fileName : String} {targets : List Target}
    (hsub : ∀ target ∈ targets, target ∈ r.targets) (hfile : r.project.IsFile file fileName) :
    (Registrar.attachAll file fileName targets r).Yields fun _ r' => r'.Ready := by
  induction targets generalizing r with
  | nil => exact .of_ok h
  | cons target rest ih =>
    obtain ⟨htarget, hsub⟩ := List.forall_mem_cons.mp hsub
    obtain ⟨attachment, q, hattach, made, hmade⟩ :=
      attach_yields h.shaped (h.native target htarget) hfile
    rw [Registrar.attachAll, hattach]
    refine (ih ((h.inserts hmade).record _) hsub (hfile.inserts hmade)).andThen ?_
    intro names r' h'
    exact .of_ok h'

lemma registerFile (h : r.Ready) (path : String) {group : ObjectId}
    (hgroup : r.project.IsGroup group) (fileName : String) (created : List String) :
    (r.registerFile path group fileName created).Yields fun _ r' => r'.Ready := by
  unfold Registrar.registerFile
  refine (h.childIndex hgroup).andThen ?_
  rintro index r₁ ⟨h₁, hproject, hindex⟩
  rw [← hproject] at hgroup hindex
  split
  · exact .of_ok (h₁.record _)
  · refine (h₁.createFile hgroup hindex fileName).andThen ?_
    rintro file r₂ ⟨h₂, hfile⟩
    refine (h₂.attachAll (fun _ hmem => hmem) hfile).andThen ?_
    intro names r₃ h₃
    exact .of_ok (h₃.record _)

theorem register (h : r.Ready) (path : String) :
    (r.register path).Yields fun _ r' => r'.Ready := by
  unfold Registrar.register
  split
  · exact .of_ok (h.record _)
  · next parts hsplit =>
    refine (h.descend h.main [] [] parts.directories).andThen ?_
    rintro ⟨way, created⟩ r₁ ⟨h₁, hway⟩
    simp only
    split
    · exact .of_ok (h₁.record _)
    · exact h₁.registerFile path (hway _ rfl) parts.fileName created

theorem registerAll (h : r.Ready) (paths : List String) :
    (Registrar.registerAll paths r).Yields fun _ r' => r'.Ready := by
  induction paths generalizing r with
  | nil => exact .of_ok h
  | cons path rest ih =>
    rw [Registrar.registerAll]
    refine (h.register path).andThen ?_
    intro registration r₁ h₁
    refine (ih h₁).andThen ?_
    intro registrations r₂ h₂
    exact .of_ok h₂

end Ready

lemma ready_ofProject {p : Project} (hshaped : p.WellShaped) (hmain : p.IsGroup p.mainGroup) :
    (ofProject p).Ready where
  shaped := hshaped
  native := nativeIn_targets p
  main := hmain
  known _ _ hindex := by cases hindex

end Registrar

namespace Project

/-- Paths can be registered in every loaded project whose lists are lists, whatever the paths are and
whatever is in the lists. -/
theorem registration_is_never_refused {text path : String} {p : Project}
    (hload : load text path = .ok p) (hshaped : p.WellShaped) (paths : List String) :
    ∃ report, (p.register paths).result = .ok report := by
  obtain ⟨kind, hgroup, hkind⟩ := (loadable_of_load hload).1.mainKind
  have hready := Registrar.ready_ofProject hshaped (isGroup_of_kind? hkind hgroup)
  obtain ⟨registrations, r, hrun, -⟩ := hready.registerAll paths
  refine ⟨⟨registrations⟩, ?_⟩
  simp only [register, hrun]
  rfl

/-- A group that lists the group it is in, an entry that is not an object and an id that is nowhere,
and a target whose phase is nowhere. -/
def tangledProject : Project :=
  let children := [.string "FILE", .string "MAIN", .string "NOTE", .string "NOWHERE", .array []]
  let entries := [("GROUP", Value.dictionary [("children", .array children),
      ("isa", .string Kind.group), ("path", .string "A")]),
    ("NOTE", .string ""),
    ("TARGET", .dictionary [("buildPhases", .array [.string "NOWHERE"]),
      ("isa", .string Kind.nativeTarget)])]
  entries.foldl (fun p entry => p.setObject entry.1 entry.2) sampleProject

lemma loadable_tangledProject : tangledProject.Loadable := by
  decide

theorem registration_is_never_refused_tangled :
    load tangledProject.write tangledProject.path = .ok tangledProject ∧
    tangledProject.WellShaped ∧ ¬ tangledProject.ReferencesClosed ∧
    ∃ report, (tangledProject.register samplePaths).result = .ok report := by
  have hload := load_write loadable_tangledProject (by decide)
  have hshaped : tangledProject.WellShaped := by decide
  exact ⟨hload, hshaped, by decide, registration_is_never_refused hload hshaped samplePaths⟩

end Project

end XcodeProject
