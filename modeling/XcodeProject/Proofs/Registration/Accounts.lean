import Mathlib
import XcodeProject.Proofs.Project.EditRecords
import XcodeProject.Proofs.Registration.Attachment

/-!
# The report accounts for what was made

A report has a line for each path: the groups that were made for it, what happened to its file, and
the targets that build the file now.  Each step of a run is compared with the record of what it
inserted (`Tallies`): a directory on the way down is a group, a new file reference is a file, and a
target that is named is a build file.  Phases are made on the side and have no line.

So a report could say that nothing has changed while a phase is new.  It cannot, because phases are
made for new files only: a record that is not empty has a group or a file reference in it
(`Accounts.reported`).
-/

namespace XcodeProject

/-! ## Counting a record -/

namespace Project

/-- A record has so many groups, file references and build files. -/
structure Tallies (made : List Inserted) (groups files buildFiles : Nat) : Prop where
  /-- The groups. -/
  groups_eq : countMade made Kind.group = groups
  /-- The file references. -/
  files_eq : countMade made Kind.fileReference = files
  /-- The build files. -/
  buildFiles_eq : countMade made Kind.buildFile = buildFiles

namespace Tallies

lemma nil : Tallies [] 0 0 0 :=
  ⟨rfl, rfl, rfl⟩

lemma append {made more : List Inserted} {groups files buildFiles groups' files' buildFiles' : Nat}
    (h : Tallies made groups files buildFiles) (h' : Tallies more groups' files' buildFiles') :
    Tallies (made ++ more) (groups + groups') (files + files') (buildFiles + buildFiles') := by
  refine ⟨?_, ?_, ?_⟩
  · rw [countMade_append, h.groups_eq, h'.groups_eq]
  · rw [countMade_append, h.files_eq, h'.files_eq]
  · rw [countMade_append, h.buildFiles_eq, h'.buildFiles_eq]

lemma group (parent id : ObjectId) (name path : String) :
    Tallies [⟨.group parent name path, id, true⟩] 1 0 0 :=
  ⟨rfl, rfl, rfl⟩

lemma file (parent id : ObjectId) (path : String) :
    Tallies [⟨.file parent path, id, true⟩] 0 1 0 :=
  ⟨rfl, rfl, rfl⟩

lemma buildFile (phase built id : ObjectId) :
    Tallies [⟨.buildFile phase built, id, true⟩] 0 0 1 :=
  ⟨rfl, rfl, rfl⟩

/-- Phases are not counted. -/
lemma phase {target : ObjectId} {phase : Phase}
    (hproper : ∀ m ∈ phase.record target, m.what.Proper) :
    Tallies (phase.record target) 0 0 0 := by
  by_cases hnew : phase.isNew = true
  · obtain ⟨path, hkind⟩ : ∃ path, phase.kind = phaseKind path :=
      hproper _ (Phase.mem_record.mpr ⟨hnew, rfl⟩)
    rw [Phase.record, if_pos hnew, hkind]
    rcases phaseKind_eq path with hphase | hphase
    · rw [hphase]
      exact ⟨rfl, rfl, rfl⟩
    · rw [hphase]
      exact ⟨rfl, rfl, rfl⟩
  · rw [Phase.record, if_neg hnew]
    exact nil

lemma attachment {target file : ObjectId} {attachment : Attachment}
    (hproper : ∀ m ∈ attachment.record target file, m.what.Proper) :
    Tallies (attachment.record target file) 0 0 (if attachment.isNew then 1 else 0) := by
  cases attachment with
  | added made holder =>
    have hphase : Tallies (holder.record target) 0 0 0 :=
      phase fun m hm => hproper m (List.mem_append_left _ hm)
    exact hphase.append (buildFile holder.id file made)
  | present => exact nil
  | declined => exact nil

end Tallies

/-! ## A report and a record -/

/-- A record has what a report counts, and the report says whether there is anything on record. -/
structure Accounts (report : Report) (made : List Inserted) : Prop where
  /-- The counts. -/
  tallies : Tallies made report.groupsCreated report.filesCreated
    (report.paths.flatMap (·.targets)).length
  /-- Whatever was made, a group or a file reference was. -/
  reported : made ≠ [] → report.changed = true

lemma changed_iff (report : Report) :
    report.changed = true ↔ 0 < report.filesCreated ∨ 0 < report.groupsCreated := by
  simp [Report.changed]

namespace Accounts

variable {made more : List Inserted} {registration : Registration}

lemma nil : Accounts ⟨[]⟩ [] where
  tallies := .nil
  reported := absurd rfl

lemma cons {registrations : List Registration} (h : Accounts ⟨[registration]⟩ made)
    (h' : Accounts ⟨registrations⟩ more) :
    Accounts ⟨registration :: registrations⟩ (made ++ more) := by
  have hfiles : Report.filesCreated ⟨registration :: registrations⟩ =
      Report.filesCreated ⟨[registration]⟩ + Report.filesCreated ⟨registrations⟩ := by
    simp [Report.filesCreated, Report.count, List.countP_cons, Nat.add_comm]
  have hgroups : Report.groupsCreated ⟨registration :: registrations⟩ =
      Report.groupsCreated ⟨[registration]⟩ + Report.groupsCreated ⟨registrations⟩ := by
    simp [Report.groupsCreated]
  constructor
  · have htallies := h.tallies.append h'.tallies
    rw [← hfiles, ← hgroups, ← List.length_append, ← List.flatMap_append] at htallies
    exact htallies
  · intro hmade
    rw [changed_iff, hfiles, hgroups]
    by_cases hfirst : made = []
    · rw [hfirst, List.nil_append] at hmade
      have hchanged := (changed_iff _).mp (h'.reported hmade)
      omega
    · have hchanged := (changed_iff _).mp (h.reported hfirst)
      omega

/-- A path whose file was there. -/
lemma of_groups (hcreated : registration.outcome ≠ .created) (htargets : registration.targets = [])
    (h : Tallies made registration.groupsCreated.length 0 0)
    (hlength : made.length = registration.groupsCreated.length) :
    Accounts ⟨[registration]⟩ made := by
  have hfiles : Report.filesCreated ⟨[registration]⟩ = 0 := by
    simp [Report.filesCreated, Report.count, hcreated]
  have hgroups : Report.groupsCreated ⟨[registration]⟩ = registration.groupsCreated.length := by
    simp [Report.groupsCreated]
  constructor
  · rw [hfiles, hgroups]
    simpa [htargets] using h
  · intro hmade
    have hpositive := List.length_pos_of_ne_nil hmade
    rw [changed_iff, hgroups]
    omega

/-- A path whose file was made. -/
lemma of_file (hcreated : registration.outcome = .created)
    (h : Tallies made registration.groupsCreated.length 1 registration.targets.length) :
    Accounts ⟨[registration]⟩ made := by
  have hfiles : Report.filesCreated ⟨[registration]⟩ = 1 := by
    simp [Report.filesCreated, Report.count, hcreated]
  constructor
  · rw [hfiles]
    simpa [Report.groupsCreated] using h
  · intro _
    rw [changed_iff, hfiles]
    omega

end Accounts

end Project

/-! ## A run -/

namespace Registrar

open Project

variable {r r' : Registrar}

lemma createGroup_eq_ok {parent group : ObjectId} {index : ChildIndex} {directory : String}
    (h : r.createGroup parent index directory = ⟨.ok group, r'⟩) :
    r.project.newGroup parent directory directory = ⟨.ok group, r'.project⟩ := by
  unfold createGroup at h
  split at h
  · cases h
  · next id p hnew =>
    cases h
    exact hnew

/-- The groups on the way are those that are named. -/
lemma tallies_descend {group : ObjectId} {walked created named directories : List String} {way : Way}
    (h : descend group walked created directories r = ⟨.ok (way, named), r'⟩) :
    ∃ new made, named = created ++ new ∧ Inserts r.project made r'.project ∧
      Tallies made new.length 0 0 ∧ made.length = new.length := by
  induction directories generalizing group walked created r with
  | nil =>
    cases h
    exact ⟨[], [], (List.append_nil _).symm, .none, .nil, rfl⟩
  | cons directory rest ih =>
    rw [descend] at h
    obtain ⟨index, r₁, hindex, h⟩ := Attempt.andThen_eq_ok h
    rw [← (childIndex_eq_ok hindex).1]
    simp only at h
    split at h
    · exact ih h
    · cases h
      exact ⟨[], [], (List.append_nil _).symm, .none, .nil, rfl⟩
    · obtain ⟨next, r₂, hcreate, h⟩ := Attempt.andThen_eq_ok h
      obtain ⟨new, made, hnamed, hinserts, htallies, hlength⟩ := ih h
      -- The group that was made here comes before those that are made further down.
      have hgroup := inserts_newGroup (createGroup_eq_ok hcreate)
      refine ⟨Path.join (walked ++ [directory]) :: new, _, ?_, hgroup.trans hinserts, ?_, ?_⟩
      · rw [hnamed, List.append_assoc]
        rfl
      · rw [List.length_cons, Nat.add_comm]
        exact (Tallies.group group next directory directory).append htallies
      · simp only [List.cons_append, List.nil_append, List.length_cons, hlength]

lemma tallies_attachAll {file : ObjectId} {fileName : String} {targets : List Target}
    {names : List String} (h : attachAll file fileName targets r = ⟨.ok names, r'⟩) :
    ∃ made, Inserts r.project made r'.project ∧ Tallies made 0 0 names.length := by
  induction targets generalizing r names with
  | nil =>
    cases h
    exact ⟨[], .none, .nil⟩
  | cons target rest ih =>
    rw [attachAll] at h
    split at h
    · cases h
    next attachment p hattach =>
    obtain ⟨others, last, hrest, hlast⟩ := Attempt.andThen_eq_ok h
    cases hlast
    obtain ⟨made, hinserts, htallies⟩ := ih hrest
    have hfirst := inserts_attach hattach
    refine ⟨_, hfirst.trans hinserts, ?_⟩
    have hboth := (Tallies.attachment fun m hm => hfirst.proper hm).append htallies
    split
    · next hnew =>
      rw [if_pos hnew] at hboth
      rwa [List.length_cons, Nat.add_comm]
    · next hold =>
      rw [if_neg hold] at hboth
      simpa only [Nat.zero_add] using hboth

lemma accounts_registerFile {path fileName : String} {group : ObjectId} {created : List String}
    {registration : Registration} {before : Project} {made : List Inserted}
    (hbefore : Inserts before made r.project) (htallies : Tallies made created.length 0 0)
    (hlength : made.length = created.length)
    (h : r.registerFile path group fileName created = ⟨.ok registration, r'⟩) :
    ∃ all, Inserts before all r'.project ∧ Accounts ⟨[registration]⟩ all := by
  unfold registerFile at h
  obtain ⟨index, r₁, hindex, h⟩ := Attempt.andThen_eq_ok h
  rw [← (childIndex_eq_ok hindex).1] at hbefore
  split at h
  · cases h
    exact ⟨made, hbefore, .of_groups (by simp) rfl htallies hlength⟩
  obtain ⟨file, r₂, hcreate, h⟩ := Attempt.andThen_eq_ok h
  obtain ⟨names, r₃, hattach, h⟩ := Attempt.andThen_eq_ok h
  cases h
  obtain ⟨more, hmore, hnames⟩ := tallies_attachAll hattach
  have hfile := inserts_newFile (createFile_eq_ok hcreate).1
  refine ⟨_, (hbefore.trans hfile).trans hmore, .of_file rfl ?_⟩
  have hall := (htallies.append (.file group file fileName)).append hnames
  simpa only [Nat.zero_add, Nat.add_zero] using hall

lemma accounts_register {path : String} {registration : Registration}
    (h : r.register path = ⟨.ok registration, r'⟩) :
    ∃ made, Inserts r.project made r'.project ∧ Accounts ⟨[registration]⟩ made := by
  unfold register at h
  split at h
  · cases h
    exact ⟨[], .none, .of_groups (by simp) rfl .nil rfl⟩
  obtain ⟨⟨way, created⟩, r₁, hdescend, h⟩ := Attempt.andThen_eq_ok h
  obtain ⟨new, made, rfl, hinserts, htallies, hlength⟩ := tallies_descend hdescend
  simp only at h
  split at h
  · cases h
    exact ⟨made, hinserts, .of_groups (by simp) rfl htallies hlength⟩
  · exact accounts_registerFile hinserts htallies hlength h

theorem accounts_registerAll {paths : List String} {registrations : List Registration}
    (h : registerAll paths r = ⟨.ok registrations, r'⟩) :
    ∃ made, Inserts r.project made r'.project ∧ Accounts ⟨registrations⟩ made := by
  induction paths generalizing r registrations with
  | nil =>
    cases h
    exact ⟨[], .none, .nil⟩
  | cons path rest ih =>
    rw [registerAll] at h
    obtain ⟨registration, r₁, hfirst, h⟩ := Attempt.andThen_eq_ok h
    obtain ⟨others, r₂, hrest, h⟩ := Attempt.andThen_eq_ok h
    cases h
    obtain ⟨made, hmade, haccounts⟩ := accounts_register hfirst
    obtain ⟨more, hmore, haccounts'⟩ := ih hrest
    exact ⟨made ++ more, hmade.trans hmore, haccounts.cons haccounts'⟩

end Registrar

/-! ## The project before and after -/

namespace Project

theorem accounts_of_register {p q : Project} {paths : List String} {report : Report}
    (h : p.register paths = ⟨.ok report, q⟩) : ∃ made, Inserts p made q ∧ Accounts report made := by
  obtain ⟨r, hall, hstate⟩ := registerAll_of_register (congrArg Attempt.result h)
  obtain ⟨made, hmade, haccounts⟩ := Registrar.accounts_registerAll hall
  rw [← hstate, h] at hmade
  exact ⟨made, hmade, haccounts⟩

/-- The report of a registration counts the new groups, file references and build files, and any
other new object is a phase.  It says that nothing has changed if and only if the project is what it
was. -/
theorem report_accounts_for_new_objects {text path : String} {p q : Project}
    (hload : load text path = .ok p) {paths : List String} {report : Report}
    (hrun : p.register paths = ⟨.ok report, q⟩) :
    q.objects.countText "isa" Kind.group =
      p.objects.countText "isa" Kind.group + report.groupsCreated ∧
    q.objects.countText "isa" Kind.fileReference =
      p.objects.countText "isa" Kind.fileReference + report.filesCreated ∧
    q.objects.countText "isa" Kind.buildFile =
      p.objects.countText "isa" Kind.buildFile + (report.paths.flatMap (·.targets)).length ∧
    (∀ id, p.objects.IsNew q.objects id → ∃ kind ∈ [Kind.group, Kind.fileReference, Kind.buildFile,
      Kind.sourcesPhase, Kind.headersPhase], q.objects.kind? id = some kind) ∧
    (report.changed = false ↔ q.root = p.root) := by
  have hsorted := sorted_of_load hload
  obtain ⟨made, hmade, haccounts⟩ := accounts_of_register hrun
  obtain ⟨hgroups, hfiles, hbuildFiles⟩ := haccounts.tallies
  refine ⟨?_, ?_, ?_, ?_, ?_⟩
  · rw [hmade.countKind_eq hsorted, hgroups]
  · rw [hmade.countKind_eq hsorted, hfiles]
  · rw [hmade.countKind_eq hsorted, hbuildFiles]
  · intro id hnew
    obtain ⟨m, hm, rfl⟩ := List.mem_map.mp ((hmade.isNew_iff id).mp hnew)
    have hkind := (hmade.proper hm).kind_mem
    refine ⟨m.what.kind, ?_, ?_⟩
    · simp only [newKinds, List.mem_cons, List.not_mem_nil, or_false] at hkind ⊢
      tauto
    · exact (hmade.text?_of_mem hm "isa").trans m.what.text?_isa
  · rw [hmade.root_eq_iff]
    constructor
    · intro hsame
      by_contra hne
      rw [haccounts.reported hne] at hsame
      cases hsame
    · rintro rfl
      rw [Bool.eq_false_iff, ne_eq, changed_iff]
      have hnoGroups : 0 = report.groupsCreated := hgroups
      have hnoFiles : 0 = report.filesCreated := hfiles
      omega

theorem report_accounts_for_new_objects_sample :
    load sampleProject.write sampleProject.path = .ok sampleProject ∧
    ∃ report q, sampleProject.register samplePaths = ⟨.ok report, q⟩ ∧
      q.objects.countText "isa" Kind.group = 3 ∧
      q.objects.countText "isa" Kind.fileReference = 2 ∧
      q.objects.countText "isa" Kind.buildFile = 1 ∧
      q.root ≠ sampleProject.root := by
  have hcounts : (sampleProject.register samplePaths).result.toOption.map (fun report =>
      (report.groupsCreated, report.filesCreated, (report.paths.flatMap (·.targets)).length,
        report.changed)) = some (1, 1, 1, true) := by decide +kernel
  obtain ⟨report, hresult, hreport⟩ := Option.map_eq_some_iff.mp hcounts
  have hrun := Attempt.eq_of_result_eq_ok (Attempt.result_eq_ok hresult)
  simp only [Prod.mk.injEq] at hreport
  obtain ⟨hgroups, hfiles, hbuildFiles, hchanged⟩ := hreport
  have hall := report_accounts_for_new_objects load_sampleProject hrun
  rw [hgroups, hfiles, hbuildFiles, hchanged] at hall
  obtain ⟨hgroups, hfiles, hbuildFiles, -, hroot⟩ := hall
  refine ⟨load_sampleProject, report, _, hrun, hgroups, hfiles, hbuildFiles, ?_⟩
  rw [ne_eq, ← hroot]
  decide

end Project

end XcodeProject
