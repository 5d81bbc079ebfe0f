import Mathlib
import XcodeProject.Proofs.Registration.Plan

/-!
# A registrar keeps to the plan

The plan of a path says what there has to be when the path has been registered.  This module follows
a registrar from its smallest steps to a run over many paths, and shows that each of them makes what
is left of its part of the plan (`Registrar.Tracks`).

A registrar that finds a file goes no further, so it is not by looking that the build files of a file
are known to be there.  They are there because the file was there at the beginning, or because what
was made is `Complete`: a file that was made was attached then.
-/

namespace XcodeProject

open PropertyList (Value)
open Project (Node NodeKind)
open Registrar (Way)

namespace Project

/-! ## Steps into groups -/

lemma nodes_of_children {p : Project} {group : ObjectId} {children : List Node}
    (h : p.children group = .ok children) : children = p.nodes group := by
  obtain ⟨object, hobject, -, rfl⟩ := children_eq_ok.mp h
  rw [nodes, ids_of_object? hobject]

/-- A new object has no children. -/
lemma nodes_of_insert_eq_ok {p q : Project} {i : Insertion} {object : Object} {id : ObjectId}
    (hproper : i.Proper) (howner : p.object? i.owner = some object)
    (h : p.insert i = ⟨.ok id, q⟩) : q.nodes id = [] := by
  have hobject := object?_insert_fresh howner
  rw [fresh_of_insert_eq_ok howner h, h] at hobject
  rw [nodes, ids_of_object? hobject, hproper.newObject.ids_eq_nil, List.filterMap_nil]

lemma stepInto_of_lacks {p : Project} {group : ObjectId} {directory : String}
    (h : p.Lacks group directory) :
    p.stepInto group directory =
      .toGroup (Insertion.firstId (.group group directory directory)) := by
  simp only [stepInto, h.1, h.2]

/-- A group that is found was there or is one that was made. -/
lemma OnWay.stepInto_of_firstNode? {p last q : Project} {done : List Inserted}
    (h : OnWay p last done q) (hapart : p.Apart (newSeeds p last)) {group next : ObjectId}
    {directory : String} (hnext : firstNode? .group directory (q.nodes group) = some next) :
    p.stepInto group directory = .toGroup next ∧
      (p.Lacks group directory → .group group directory directory ∈ done.map Inserted.what) := by
  rw [h.firstNode?_group hapart, Option.or_eq_some_iff] at hnext
  rcases hnext with hold | ⟨-, hmade⟩
  · refine ⟨by simp only [stepInto, hold], fun hlacks => ?_⟩
    rw [hlacks.1] at hold
    cases hold
  · obtain ⟨hmem, rfl⟩ := madeId?_eq_some.mp hmade
    obtain ⟨m, hm, hwhat⟩ := List.mem_map.mp hmem
    have hneeded := h.needed m hm
    rw [hwhat] at hneeded
    exact ⟨stepInto_of_lacks hneeded.2, fun _ => hmem⟩

/-! ## Complete plans -/

lemma key_ne_of_mem_attachment {p : Project} {file : ObjectId} {fileName : String}
    {target : Target} {i : Insertion} (h : i ∈ p.attachment file fileName target) :
    i.key ≠ "children" := by
  unfold attachment missingPhase at h
  split at h
  · rcases List.mem_append.mp h with h | h
    · split at h
      · obtain rfl := List.mem_singleton.mp h
        simp [Insertion.key]
      · cases h
    · obtain rfl := List.mem_singleton.mp h
      simp [Insertion.key]
  · cases h

/-- With every file there is all that attaching it takes. -/
def Complete (p : Project) (made : List Insertion) : Prop :=
  ∀ group fileName, .file group fileName ∈ made →
    ∀ i ∈ p.attachments group fileName, i ∈ made

lemma Complete.fulfils {p : Project} {done more : List Inserted} {plan : List Insertion}
    (h : p.Complete (done.map Inserted.what)) (hplan : p.Complete plan)
    (hfulfils : Fulfils done more plan) : p.Complete ((done ++ more).map Inserted.what) := by
  intro group fileName hfile i hi
  rw [hfulfils.mem_iff] at hfile ⊢
  exact hfile.imp (h group fileName · i hi) (hplan group fileName · i hi)

lemma complete_missingGroups (p : Project) (group : ObjectId) (directories : List String) :
    p.Complete (p.missingGroups group directories) := by
  intro parent fileName hfile
  exfalso
  induction directories generalizing group with
  | nil => simp [missingGroups] at hfile
  | cons directory rest ih =>
    rw [missingGroups] at hfile
    rcases List.mem_append.mp hfile with hfile | hfile
    · split at hfile
      · simp at hfile
      · cases hfile
    · split at hfile
      · next next _ => exact ih next hfile
      · cases hfile

lemma complete_missingFile (p : Project) (group : ObjectId) (fileName : String) :
    p.Complete (p.missingFile group fileName) := by
  intro parent name hfile i hi
  unfold missingFile at hfile ⊢
  split at hfile
  · next hnone =>
    rcases List.mem_cons.mp hfile with heq | hfile
    · cases heq
      rw [if_pos hnone]
      exact List.mem_cons_of_mem _ hi
    · -- Nothing else in the plan is a file.
      obtain ⟨target, -, hattachment⟩ := List.mem_flatMap.mp hfile
      exact absurd rfl (key_ne_of_mem_attachment hattachment)
  · cases hfile

lemma Complete.append {p : Project} {made more : List Insertion} (h : p.Complete made)
    (h' : p.Complete more) : p.Complete (made ++ more) := by
  intro group fileName hfile i hi
  rw [List.mem_append] at hfile ⊢
  exact hfile.imp (h group fileName · i hi) (h' group fileName · i hi)

lemma complete_plan (p : Project) (path : String) : p.Complete (p.plan path) := by
  unfold plan
  split
  · intro group fileName hfile
    cases hfile
  · refine (complete_missingGroups p p.mainGroup _).append ?_
    split
    · next group _ => exact complete_missingFile p group _
    · intro group fileName hfile
      cases hfile

end Project

/-! ## Registrars that keep to the plan -/

namespace Registrar

open Project

lemma develops_descend (group : ObjectId) (walked created directories : List String)
    (r : Registrar) :
    Develops r.project (descend group walked created directories r).state.project :=
  ((spans_develops.covers r.targets).descend group walked created directories r rfl).2

lemma develops_attachAll (file : ObjectId) (fileName : String) {targets : List Target}
    (r : Registrar) (hsub : ∀ target ∈ targets, target ∈ r.targets) :
    Develops r.project (attachAll file fileName targets r).state.project :=
  ((spans_develops.covers r.targets).attachAll file fileName hsub r rfl).2

lemma develops_registerFile (r : Registrar) (path : String) (group : ObjectId)
    (fileName : String) (created : List String) :
    Develops r.project (r.registerFile path group fileName created).state.project :=
  ((spans_develops.covers r.targets).registerFile r path group fileName created rfl).2

lemma develops_registerAll (paths : List String) (r : Registrar) :
    Develops r.project (registerAll paths r).state.project :=
  ((spans_develops.covers r.targets).registerAll paths r rfl).2

/-- The registrar of a project between `p` and `last` has the targets of `p`, and it remembers of
groups what they have. -/
structure Tracks (p last : Project) (done : List Inserted) (r : Registrar) : Prop where
  /-- The project is on the way. -/
  onWay : OnWay p last done r.project
  /-- The targets are those at the beginning. -/
  targets_eq : r.targets = p.targets
  /-- What is remembered of a group is what it has. -/
  index_eq : ∀ group index, r.index.lookup group = some index →
    index = ChildIndex.ofNodes (r.project.nodes group)

namespace Tracks

variable {p last : Project} {done : List Inserted} {r r' : Registrar}

lemma record (h : r.Tracks p last done) (events : List Event) :
    (r.record events).Tracks p last done :=
  ⟨h.onWay, h.targets_eq, h.index_eq⟩

lemma mainGroup_eq (h : r.Tracks p last done) : r.project.mainGroup = p.mainGroup := by
  rw [h.onWay.inserts.edits.frame]

lemma remember (h : r.Tracks p last done) (group : ObjectId) :
    { r with index := Dict.insert r.index group (.ofNodes (r.project.nodes group)) }.Tracks p last
      done := by
  refine ⟨h.onWay, h.targets_eq, ?_⟩
  intro other index hlookup
  rw [Dict.lookup_insert] at hlookup
  split at hlookup
  · next heq =>
    cases hlookup
    rw [heq]
  · exact h.index_eq other index hlookup

lemma childIndex (h : r.Tracks p last done) {group : ObjectId} {index : ChildIndex}
    (hrun : r.childIndex group = ⟨.ok index, r'⟩) :
    r'.Tracks p last done ∧ index = .ofNodes (r'.project.nodes group) := by
  unfold Registrar.childIndex at hrun
  split at hrun
  · next found hlookup =>
    cases hrun
    exact ⟨h, h.index_eq group index hlookup⟩
  · split at hrun
    · cases hrun
    · next children hchildren =>
      cases hrun
      rw [nodes_of_children hchildren]
      exact ⟨(h.remember group).record _, rfl⟩

section Apart

variable (hapart : p.Apart (newSeeds p last))

include hapart

/-- What an owner is remembered to have follows from what is put there. -/
lemma add (h : r.Tracks p last done) {q : Project} {m : Inserted} (hlinked : m.linked = true)
    (hkey : m.what.key = "children") (hway : OnWay p last (done ++ [m]) q) :
    { r with
      project := q
      index := Dict.insert r.index m.what.owner
        ((ChildIndex.ofNodes (r.project.nodes m.what.owner)).add m.node) }.Tracks p last
      (done ++ [m]) := by
  have hnodes : ∀ group, q.nodes group = r.project.nodes group ++ addedNodes [m] group := by
    intro group
    rw [hway.nodes_eq hapart, h.onWay.nodes_eq hapart, addedNodes_append, List.append_assoc]
  refine ⟨hway, h.targets_eq, ?_⟩
  intro group index hlookup
  rw [Dict.lookup_insert] at hlookup
  simp only [hnodes]
  split at hlookup
  · next heq =>
    cases hlookup
    have hadded : addedNodes [m] group = [m.node] := by simp [addedNodes, hlinked, hkey, heq]
    rw [hadded, ChildIndex.ofNodes_append, heq]
  · next hne =>
    have hadded : addedNodes [m] group = [] := by simp [addedNodes, Ne.symm hne]
    rw [hadded, List.append_nil]
    exact h.index_eq group index hlookup

lemma createGroup (h : r.Tracks p last done) {group id : ObjectId} {directory : String}
    (hlacks : p.Lacks group directory)
    (hnew : .group group directory directory ∉ done.map Inserted.what)
    (hrun : r.createGroup group (.ofNodes (r.project.nodes group)) directory = ⟨.ok id, r'⟩)
    (hlater : Develops r'.project last) :
    id = Insertion.firstId (.group group directory directory) ∧
      r'.Tracks p last (done ++ [⟨.group group directory directory, id, true⟩]) := by
  have hnone : (ChildIndex.ofNodes (r.project.nodes group)).groups.lookup directory = none := by
    rw [ChildIndex.lookup_groups, h.onWay.firstNode?_group hapart, hlacks.1, Option.none_or]
    exact madeId?_eq_none.mpr hnew
  unfold Registrar.createGroup at hrun
  split at hrun
  · cases hrun
  next made q hmade =>
  cases hrun
  rw [newGroup_eq] at hmade
  split at hmade
  · cases hmade
  next object hgroup =>
  have howner := (group_eq_ok.mp hgroup).1
  obtain ⟨hid, hway⟩ := h.onWay.insert hapart (i := .group group directory directory) trivial
    howner ⟨rfl, hlacks⟩ hnew hmade hlater
  refine ⟨hid, ?_⟩
  have htracks := ((h.add hapart rfl rfl hway).remember id).record
    [.groupCreated id group directory]
  have hempty : q.nodes id = [] :=
    nodes_of_insert_eq_ok (i := .group group directory directory) trivial howner hmade
  have hnode : Inserted.node ⟨.group group directory directory, id, true⟩ =
      ⟨id, .group, some directory, some directory⟩ := rfl
  simp only [Insertion.owner, hnode, hempty, ChildIndex.add,
    ChildIndex.addFirst_of_lookup_none hnone] at htracks
  exact htracks

lemma createFile (h : r.Tracks p last done) {group id : ObjectId} {fileName : String}
    (hnone : firstNode? .file fileName (p.nodes group) = none)
    (hnew : .file group fileName ∉ done.map Inserted.what)
    (hrun : r.createFile group (.ofNodes (r.project.nodes group)) fileName = ⟨.ok id, r'⟩)
    (hlater : Develops r'.project last) :
    id = Insertion.firstId (.file group fileName) ∧
      r'.Tracks p last (done ++ [⟨.file group fileName, id, true⟩]) := by
  have hnone : (ChildIndex.ofNodes (r.project.nodes group)).files.lookup fileName = none := by
    rw [ChildIndex.lookup_files, h.onWay.firstNode?_file hapart, hnone, Option.none_or]
    exact madeId?_eq_none.mpr hnew
  unfold Registrar.createFile at hrun
  split at hrun
  · cases hrun
  next made q hmade =>
  cases hrun
  rw [newFile_eq] at hmade
  split at hmade
  · cases hmade
  next object hgroup =>
  obtain ⟨hid, hway⟩ := h.onWay.insert hapart (i := .file group fileName) trivial
    (group_eq_ok.mp hgroup).1 trivial hnew hmade hlater
  refine ⟨hid, ?_⟩
  have htracks := (h.add hapart rfl rfl hway).record [.fileCreated id group fileName]
  have hnode : Inserted.node ⟨.file group fileName, id, true⟩ = ⟨id, .file, none, some fileName⟩ :=
    rfl
  simp only [Insertion.owner, hnode, ChildIndex.add,
    ChildIndex.addFirst_of_lookup_none hnone] at htracks
  exact htracks

/-! ### The way down -/

theorem descend (h : r.Tracks p last done) {group : ObjectId} {walked created : List String}
    {directories : List String} {way : Way} {groups : List String}
    (hrun : Registrar.descend group walked created directories r = ⟨.ok (way, groups), r'⟩)
    (hlater : Develops r'.project last) :
    way = p.wayTo group directories ∧ ∃ more, r'.Tracks p last (done ++ more) ∧
      Fulfils done more (p.missingGroups group directories) := by
  induction directories generalizing group walked created r done with
  | nil =>
    cases hrun
    exact ⟨rfl, [], by simpa using h, .of_subset (by simp [missingGroups])⟩
  | cons directory rest ih =>
    rw [Registrar.descend] at hrun
    obtain ⟨index, r₁, hindex, hrun⟩ := Attempt.andThen_eq_ok hrun
    obtain ⟨h₁, rfl⟩ := h.childIndex hindex
    have hgroup := h₁.onWay.firstNode?_group hapart group directory
    have hfolder := h₁.onWay.firstNode?_synchronized hapart group directory
    simp only [ChildIndex.lookup_groups, ChildIndex.lookup_synchronized] at hrun
    rw [wayTo, missingGroups]
    split at hrun
    · next next _ hnext =>
      obtain ⟨hstep, hmade⟩ := h₁.onWay.stepInto_of_firstNode? hapart hnext
      obtain ⟨hway, more, htracks, hfulfils⟩ := ih h₁ hrun
      rw [hstep]
      refine ⟨hway, more, htracks, hfulfils.of_known ?_⟩
      intro i hi
      split at hi
      · next hlacks =>
        obtain rfl := List.mem_singleton.mp hi
        exact hmade hlacks
      · cases hi
    · next folder hnone hsome =>
      cases hrun
      rw [hgroup] at hnone
      rw [hfolder] at hsome
      have hold := (Option.or_eq_none_iff.mp hnone).1
      have hlacks : ¬ p.Lacks group directory := by
        rintro ⟨-, hno⟩
        rw [hno] at hsome
        cases hsome
      have hstep : p.stepInto group directory = .intoFolder folder := by
        simp only [stepInto, hold, hsome]
      rw [hstep, if_neg hlacks]
      exact ⟨rfl, [], by simpa using h₁, .of_subset (by simp)⟩
    · next hnone hno =>
      obtain ⟨id, r₂, hcreate, hrun⟩ := Attempt.andThen_eq_ok hrun
      rw [hgroup, Option.or_eq_none_iff, madeId?_eq_none] at hnone
      rw [hfolder] at hno
      obtain ⟨hold, hnew⟩ := hnone
      have hlacks : p.Lacks group directory := ⟨hold, hno⟩
      have hrest := develops_descend id (walked ++ [directory])
        (created ++ [Path.join (walked ++ [directory])]) rest r₂
      rw [hrun] at hrest
      obtain ⟨rfl, h₂⟩ := h₁.createGroup hapart hlacks hnew hcreate (trans_of Develops hrest hlater)
      obtain ⟨hway, more, htracks, hfulfils⟩ := ih h₂ hrun
      rw [stepInto_of_lacks hlacks, if_pos hlacks]
      refine ⟨hway, _ ++ more, ?_, (Fulfils.single _).trans hfulfils⟩
      rwa [← List.append_assoc]

/-! ### Targets -/

lemma attach (h : r.Tracks p last done) {group : ObjectId} {fileName : String}
    (hfile : .file group fileName ∈ done.map Inserted.what) {target : Target}
    {attachment : Attachment} {q : Project}
    (hrun : r.project.attach target (Insertion.firstId (.file group fileName)) =
      ⟨.ok attachment, q⟩) (hlater : Develops q last) (events : List Event) :
    ∃ more, ({ r with project := q }.record events).Tracks p last (done ++ more) ∧
      Fulfils done more
        (p.attachment (Insertion.firstId (.file group fileName)) fileName target) := by
  obtain ⟨more, hway, hfulfils⟩ := h.onWay.attach hapart hfile hrun hlater
  refine ⟨more, ⟨hway, h.targets_eq, ?_⟩, hfulfils⟩
  intro owner index hlookup
  -- Neither a phase nor a build file is a child of a group.
  have hadded : addedNodes more owner = [] := by
    refine List.map_eq_nil_iff.mpr (List.filter_eq_nil_iff.mpr fun m hm => ?_)
    simp [key_ne_of_mem_attachment (hfulfils.planned m hm)]
  have hnodes : q.nodes owner = r.project.nodes owner := by
    rw [hway.nodes_eq hapart, h.onWay.nodes_eq hapart, addedNodes_append, hadded, List.append_nil]
  show index = .ofNodes (q.nodes owner)
  rw [hnodes]
  exact h.index_eq owner index hlookup

lemma attachAll (h : r.Tracks p last done) {group : ObjectId} {fileName : String}
    (hfile : .file group fileName ∈ done.map Inserted.what) {targets : List Target}
    (hsub : ∀ target ∈ targets, target ∈ r.targets) {names : List String}
    (hrun : Registrar.attachAll (Insertion.firstId (.file group fileName)) fileName targets r =
      ⟨.ok names, r'⟩) (hlater : Develops r'.project last) :
    ∃ more, r'.Tracks p last (done ++ more) ∧ Fulfils done more
      (targets.flatMap (p.attachment (Insertion.firstId (.file group fileName)) fileName)) := by
  induction targets generalizing r done names with
  | nil =>
    cases hrun
    exact ⟨[], by simpa using h, .of_subset (by simp)⟩
  | cons target rest ih =>
    rw [Registrar.attachAll] at hrun
    split at hrun
    · cases hrun
    next attachment q hattach =>
    obtain ⟨others, r₁, hrest, hlast⟩ := Attempt.andThen_eq_ok hrun
    cases hlast
    have hsub := (List.forall_mem_cons.mp hsub).2
    have hdevelops := develops_attachAll (Insertion.firstId (.file group fileName)) fileName
      ({ r with project := q }.record (attachmentEvents target fileName attachment)) hsub
    rw [hrest] at hdevelops
    obtain ⟨first, htracks, hfirst⟩ := h.attach hapart hfile hattach
      (trans_of Develops hdevelops hlater) (attachmentEvents target fileName attachment)
    have hfile : .file group fileName ∈ (done ++ first).map Inserted.what :=
      (hfirst.mem_iff _).mpr (.inl hfile)
    obtain ⟨second, htracks, hsecond⟩ := ih htracks hfile hsub hrest
    refine ⟨first ++ second, ?_, hfirst.trans hsecond⟩
    rwa [← List.append_assoc]

/-! ### Paths -/

/-- A file that is found was there, or it was made with all that goes with it. -/
theorem registerFile (h : r.Tracks p last done)
    (hcomplete : p.Complete (done.map Inserted.what)) {path fileName : String} {group : ObjectId}
    {created : List String} {registration : Registration}
    (hrun : r.registerFile path group fileName created = ⟨.ok registration, r'⟩)
    (hlater : Develops r'.project last) :
    ∃ more, r'.Tracks p last (done ++ more) ∧
      Fulfils done more (p.missingFile group fileName) := by
  unfold Registrar.registerFile at hrun
  obtain ⟨index, r₁, hindex, hrun⟩ := Attempt.andThen_eq_ok hrun
  obtain ⟨h₁, rfl⟩ := h.childIndex hindex
  have hfile := h₁.onWay.firstNode?_file hapart group fileName
  simp only [ChildIndex.lookup_files] at hrun
  unfold missingFile
  split at hrun
  · next file hfound =>
    cases hrun
    refine ⟨[], by simpa using h₁.record _, .of_subset ?_⟩
    rw [hfile, Option.or_eq_some_iff] at hfound
    rcases hfound with hold | ⟨hnone, hmade⟩
    · simp [hold]
    · have hmem := (madeId?_eq_some.mp hmade).1
      rw [if_pos hnone]
      exact List.forall_mem_cons.mpr ⟨hmem, hcomplete group fileName hmem⟩
  · next hnone =>
    obtain ⟨file, r₂, hcreate, hrun⟩ := Attempt.andThen_eq_ok hrun
    obtain ⟨names, r₃, hattach, hrun⟩ := Attempt.andThen_eq_ok hrun
    cases hrun
    rw [hfile, Option.or_eq_none_iff, madeId?_eq_none] at hnone
    obtain ⟨hold, hnew⟩ := hnone
    have hdevelops := develops_attachAll file fileName r₂ (fun _ hmem => hmem)
    rw [hattach] at hdevelops
    obtain ⟨rfl, h₂⟩ :=
      h₁.createFile hapart hold hnew hcreate (trans_of Develops hdevelops hlater)
    obtain ⟨more, htracks, hfulfils⟩ :=
      h₂.attachAll hapart (by simp) (fun _ hmem => hmem) hattach hlater
    rw [h₂.targets_eq] at hfulfils
    rw [if_pos hold]
    refine ⟨_ ++ more, ?_, (Fulfils.single _).trans hfulfils⟩
    rw [← List.append_assoc]
    exact htracks.record _

theorem register (h : r.Tracks p last done)
    (hcomplete : p.Complete (done.map Inserted.what)) {path : String}
    {registration : Registration} (hrun : r.register path = ⟨.ok registration, r'⟩)
    (hlater : Develops r'.project last) :
    ∃ more, r'.Tracks p last (done ++ more) ∧ Fulfils done more (p.plan path) := by
  unfold Registrar.register at hrun
  split at hrun
  · next hsplit =>
    cases hrun
    rw [plan, hsplit]
    exact ⟨[], by simpa using h.record _, .of_subset (by simp)⟩
  · next parts hsplit =>
    rw [plan, hsplit]
    obtain ⟨⟨way, groups⟩, r₁, hdescend, hrun⟩ := Attempt.andThen_eq_ok hrun
    rw [h.mainGroup_eq] at hdescend
    simp only at hrun
    split at hrun
    · next folder =>
      cases hrun
      obtain ⟨hway, more, htracks, hfulfils⟩ := h.descend hapart hdescend hlater
      simp only [← hway, List.append_nil]
      exact ⟨more, htracks.record _, hfulfils⟩
    · next group =>
      have hdevelops := develops_registerFile r₁ path group parts.fileName groups
      rw [hrun] at hdevelops
      obtain ⟨hway, first, htracks, hfirst⟩ :=
        h.descend hapart hdescend (trans_of Develops hdevelops hlater)
      have hcomplete' := hcomplete.fulfils (complete_missingGroups p p.mainGroup _) hfirst
      obtain ⟨second, htracks, hsecond⟩ := htracks.registerFile hapart hcomplete' hrun hlater
      simp only [← hway]
      refine ⟨first ++ second, ?_, hfirst.trans hsecond⟩
      rwa [← List.append_assoc]

theorem registerAll (h : r.Tracks p last done) (hcomplete : p.Complete (done.map Inserted.what))
    {paths : List String} {registrations : List Registration}
    (hrun : Registrar.registerAll paths r = ⟨.ok registrations, r'⟩)
    (hlater : Develops r'.project last) :
    ∃ more, r'.Tracks p last (done ++ more) ∧ Fulfils done more (paths.flatMap p.plan) := by
  induction paths generalizing r done registrations with
  | nil =>
    cases hrun
    exact ⟨[], by simpa using h, .of_subset (by simp)⟩
  | cons path rest ih =>
    rw [Registrar.registerAll] at hrun
    obtain ⟨registration, r₁, hfirst, hrun⟩ := Attempt.andThen_eq_ok hrun
    obtain ⟨others, r₂, hrest, hrun⟩ := Attempt.andThen_eq_ok hrun
    cases hrun
    have hdevelops := develops_registerAll rest r₁
    rw [hrest] at hdevelops
    obtain ⟨first, htracks, hfulfils⟩ :=
      h.register hapart hcomplete hfirst (trans_of Develops hdevelops hlater)
    have hcomplete' := hcomplete.fulfils (complete_plan p path) hfulfils
    obtain ⟨second, htracks, hfulfils'⟩ := ih htracks hcomplete' hrest
    refine ⟨first ++ second, ?_, hfulfils.trans hfulfils'⟩
    rwa [← List.append_assoc]

end Apart

end Tracks

end Registrar

end XcodeProject
