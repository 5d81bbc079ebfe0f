import Mathlib
import XcodeProject.CommandLine.Run
import XcodeProject.Proofs.CommandLine.DryRunFlag
import XcodeProject.Proofs.FileSystem.Replacement
import XcodeProject.Proofs.Registration.Attachment

/-!
# A run changes the project file or nothing

A run has one place where it writes, after the project was loaded and the paths registered, and what
it writes replaces the project file as a whole.  So a run that fails up to there, at whatever point
and for whatever reason, and a dry run leave the file system as it was.  Otherwise one file is
different: the one that the project was loaded from, and it holds the text of the project with the
paths registered (`Saved`).

One thing comes after the saving: the report is printed.  If this fails the run fails, but the
project is saved (`unprinted_report_leaves_project_saved`).  It is the only way for a run to fail
and to change a file (`run_changes_project_file_or_nothing`).

The report of a dry run is that of a run which saves, except for the word on saving
(`SameButForSaving`).
-/

namespace XcodeProject

/-! ## A project from a file -/

namespace FileSystem

variable {fs : FileSystem} {conditions : Conditions} {path file : String} {content : ByteArray}

/-- The project file for a path: the file there, or the one in the bundle there. -/
inductive HoldsProject (fs : FileSystem) (path : String) : String → ByteArray → Prop
  /-- The path is that of the project file. -/
  | file {content : ByteArray} (hfile : fs.at? path = some (.file content)) :
      HoldsProject fs path path content
  /-- The path is that of the bundle. -/
  | bundle {isSealed : Bool} {content : ByteArray}
      (hbundle : fs.at? path = some (.directory isSealed))
      (hfile : fs.at? (Path.inside path projectFileName) = some (.file content)) :
      HoldsProject fs path (Path.inside path projectFileName) content

lemma HoldsProject.at?_eq (h : HoldsProject fs path file content) :
    fs.at? file = some (.file content) := by
  cases h <;> assumption

/-- There is at most one project file for a path. -/
lemma HoldsProject.unique {file' : String} {content' : ByteArray}
    (h : HoldsProject fs path file content) (h' : HoldsProject fs path file' content') :
    file = file' ∧ content = content' := by
  cases h with
  | file hfile =>
    cases h' with
    | file hfile' =>
      rw [hfile] at hfile'
      cases hfile'
      exact ⟨rfl, rfl⟩
    | bundle hbundle' =>
      rw [hfile] at hbundle'
      cases hbundle'
  | bundle hbundle hfile =>
    cases h' with
    | file hfile' =>
      rw [hbundle] at hfile'
      cases hfile'
    | bundle hbundle' hfile' =>
      rw [hfile] at hfile'
      cases hfile'
      exact ⟨rfl, rfl⟩

lemma at?_of_seen? {entry : Entry} (h : fs.seen? conditions path = some entry) :
    fs.at? path = some entry := by
  unfold seen? at h
  split at h
  · cases h
  · exact h

lemma eq_of_read {path' : String} {content' : ByteArray}
    (h : read conditions path content = .file path' content') :
    path = path' ∧ content = content' := by
  unfold read at h
  split at h
  · cases h
  · cases h
    exact ⟨rfl, rfl⟩

lemma holdsProject_of_findProject (h : fs.findProject conditions path = .file file content) :
    HoldsProject fs path file content := by
  unfold findProject at h
  split at h
  · cases h
  · next isSealed hbundle =>
    simp only at h
    split at h
    · next hfile =>
      obtain ⟨rfl, rfl⟩ := eq_of_read h
      exact .bundle (at?_of_seen? hbundle) (at?_of_seen? hfile)
    · cases h
  · next hfile =>
    obtain ⟨rfl, rfl⟩ := eq_of_read h
    exact .file (at?_of_seen? hfile)
  · cases h

end FileSystem

namespace Project

variable {fs : FileSystem} {conditions conditions' : Conditions} {p p' : Project} {path : String}

/-- A project that was opened was loaded from the text of a project file. -/
lemma exists_load_of_openAt (h : openAt fs conditions path = .ok p) :
    ∃ file content text, fs.HoldsProject path file content ∧
      String.fromUTF8? content = some text ∧ load text file = .ok p := by
  unfold openAt at h
  cases hfound : fs.findProject conditions path with
  | nothing =>
    rw [hfound] at h
    cases h
  | noProjectFile =>
    rw [hfound] at h
    cases h
  | unreadable file reason =>
    rw [hfound] at h
    cases h
  | file file content =>
    rw [hfound, ofFound] at h
    split at h
    · cases h
    · next text htext =>
      exact ⟨file, content, text, FileSystem.holdsProject_of_findProject hfound, htext, h⟩

/-- Conditions decide whether a project is opened, but not which. -/
lemma eq_of_openAt (h : openAt fs conditions path = .ok p)
    (h' : openAt fs conditions' path = .ok p') : p = p' := by
  obtain ⟨file, content, text, hholds, htext, hload⟩ := exists_load_of_openAt h
  obtain ⟨file', content', text', hholds', htext', hload'⟩ := exists_load_of_openAt h'
  obtain ⟨rfl, rfl⟩ := hholds.unique hholds'
  obtain rfl := Option.some.inj (htext.symm.trans htext')
  exact Except.ok.inj (hload.symm.trans hload')

/-- A project that was opened has its path to a file. -/
lemma exists_resolve_of_openAt (h : openAt fs conditions path = .ok p) :
    ∃ location, fs.resolve p.path = some location := by
  obtain ⟨file, content, text, hholds, -, hload⟩ := exists_load_of_openAt h
  rw [(loadable_of_load hload).2]
  obtain ⟨location, hlocation, -⟩ := Option.bind_eq_some_iff.mp hholds.at?_eq
  exact ⟨location, hlocation⟩

lemma path_register (p : Project) (paths : List String) :
    (p.register paths).state.path = p.path := by
  rw [(edits_register p paths).frame]

end Project

namespace CommandLine

open Text (Json)

variable {request : Request} {conditions conditions' : Conditions} {fs : FileSystem}
  {result : Result} {world after : World}

/-! ## The parts of a run -/

/-- Preparing is loading and registering. -/
lemma prepare_fst (request : Request) (found : Found) :
    (prepare request found).1 =
      match Project.ofFound request.project found with
      | .error e => .error (.load e)
      | .ok p =>
        match p.register request.paths with
        | ⟨.error e, _⟩ => .error (.register e)
        | ⟨.ok report, q⟩ => .ok ⟨q, report⟩ := by
  unfold prepare
  cases Project.ofFound request.project found with
  | error e => rfl
  | ok p =>
    simp only [Project.register]
    cases (Registrar.registerAll request.paths (.ofProject p)).result <;> rfl

lemma prepare_eq_error {found : Found} {failure : Failure} {events : List Event}
    (h : prepare request found = (.error failure, events)) {p : Project}
    (hp : Project.ofFound request.project found = .ok p) (report : Report) (q : Project) :
    p.register request.paths ≠ ⟨.ok report, q⟩ := by
  intro hregister
  have hfst := prepare_fst request found
  rw [h, hp] at hfst
  simp only [hregister] at hfst
  cases hfst

lemma prepare_eq_ok {found : Found} {prepared : Prepared} {events : List Event}
    (h : prepare request found = (.ok prepared, events)) :
    ∃ p, Project.ofFound request.project found = .ok p ∧
      p.register request.paths = ⟨.ok prepared.report, prepared.project⟩ := by
  have hfst := prepare_fst request found
  rw [h] at hfst
  split at hfst
  · cases hfst
  · next p hp =>
    split at hfst
    · cases hfst
    · next report q hregister =>
      cases hfst
      exact ⟨p, hp, hregister⟩

lemma Failure.exitCode_ne_zero (failure : Failure) : failure.exitCode ≠ 0 := by
  cases failure <;> simp [exitCode]

/-- Saving a project changes its file, or nothing if it fails or the run is a dry one. -/
lemma Request.save_cases {p : Project} {saved : Except Failure Event}
    (h : request.save (.ofConditions conditions) p world = (saved, after)) :
    after.output = world.output ∧
    ((∃ failure, saved = .error failure ∧ after.files = world.files ∧ request.dryRun = false ∧
        ∀ files, p.save world.files conditions ≠ (.ok (), files)) ∨
      ∃ last, saved = .ok last ∧ (request.dryRun = true ∧ after.files = world.files ∨
        request.dryRun = false ∧ p.save world.files conditions = (.ok (), after.files))) := by
  unfold Request.save at h
  split at h
  · next hdry =>
    cases h
    exact ⟨rfl, .inr ⟨_, rfl, .inl ⟨hdry, rfl⟩⟩⟩
  · next hdry =>
    have hsaves : request.dryRun = false := Bool.eq_false_iff.mpr hdry
    simp only [bind, StateT.bind, Host.ofConditions] at h
    rw [Project.save, Project.writeTo]
    cases hreplace : world.files.replaceFile conditions p.path p.write.toUTF8 with
    | mk outcome files =>
      rw [hreplace] at h
      cases outcome with
      | error reason =>
        cases h
        refine ⟨rfl, .inl ⟨_, rfl, FileSystem.replaceFile_eq_of_error hreplace, hsaves, ?_⟩⟩
        intro files' hok
        cases hok
      | ok _ =>
        cases h
        exact ⟨rfl, .inr ⟨_, rfl, .inr ⟨hsaves, rfl⟩⟩⟩

/-- The report is printed, or the run fails. -/
lemma Request.conclude_cases {report : Report} {events : List Event}
    (h : request.conclude (.ofConditions conditions) report events world = (result, after)) :
    after.files = world.files ∧
    (conditions.printing (reportOutput request report) = none ∧ result.exitCode = 0 ∧
        after.output = world.output ++ reportOutput request report ∨
      (conditions.printing (reportOutput request report)).isSome = true ∧
        result.exitCode = 1) := by
  unfold Request.conclude at h
  simp only [bind, StateT.bind, Host.ofConditions] at h
  cases hprinting : conditions.printing (reportOutput request report) with
  | none =>
    rw [hprinting] at h
    cases h
    exact ⟨rfl, .inl ⟨rfl, rfl, rfl⟩⟩
  | some refusal =>
    rw [hprinting] at h
    cases h
    exact ⟨rfl, .inr ⟨rfl, rfl⟩⟩

/-! ## Whole runs -/

/-- What a run can come to.  Either it fails with nothing changed, and this is not so once the paths
are registered unless saving fails; or it comes to the report, which is printed or not. -/
lemma Request.run_cases (h : request.run (.ofConditions conditions) ⟨fs, ""⟩ = (result, after)) :
    (result.exitCode ≠ 0 ∧ after.files = fs ∧ ∀ p report q,
      Project.openAt fs conditions request.project = .ok p →
      p.register request.paths = ⟨.ok report, q⟩ →
      request.dryRun = false ∧ ∀ files, q.save fs conditions ≠ (.ok (), files)) ∨
    ∃ p report q, Project.openAt fs conditions request.project = .ok p ∧
      p.register request.paths = ⟨.ok report, q⟩ ∧
      (request.dryRun = true ∧ after.files = fs ∨
        request.dryRun = false ∧ q.save fs conditions = (.ok (), after.files)) ∧
      (conditions.printing (reportOutput request report) = none ∧ result.exitCode = 0 ∧
          after.output = reportOutput request report ∨
        (conditions.printing (reportOutput request report)).isSome = true ∧
          result.exitCode = 1) := by
  unfold Request.run at h
  simp only [bind, StateT.bind] at h
  have hfind : (Host.ofConditions conditions).find request.project ⟨fs, ""⟩ =
      (fs.findProject conditions request.project, ⟨fs, ""⟩) := rfl
  rw [hfind] at h
  simp only at h
  cases hprepare : prepare request (fs.findProject conditions request.project) with
  | mk prepared events =>
  rw [hprepare] at h
  cases prepared with
  | error failure =>
    cases h
    refine .inl ⟨failure.exitCode_ne_zero, rfl, ?_⟩
    intro p report q hopen hregister
    exact absurd hregister (prepare_eq_error hprepare hopen report q)
  | ok prepared =>
    obtain ⟨p, hopen, hregister⟩ := prepare_eq_ok hprepare
    simp only [StateT.bind] at h
    cases hsave : request.save (.ofConditions conditions) prepared.project ⟨fs, ""⟩ with
    | mk saved next =>
    rw [hsave] at h
    obtain ⟨hnothing, ⟨failure, rfl, hsame, hdry, hunsaved⟩ | ⟨last, rfl, hfiles⟩⟩ :=
      Request.save_cases hsave
    · cases h
      refine .inl ⟨failure.exitCode_ne_zero, hsame, ?_⟩
      intro p' report q hopen' hregister'
      obtain rfl := Project.eq_of_openAt hopen' hopen
      cases hregister'.symm.trans hregister
      exact ⟨hdry, hunsaved⟩
    · obtain ⟨hkept, hprinted⟩ := Request.conclude_cases h
      rw [hkept]
      rw [hnothing, String.empty_append] at hprinted
      exact .inr ⟨p, _, _, hopen, hregister, hfiles, hprinted⟩

/-- The project of a request was saved: where it was loaded from stands its text with the paths
registered, and everything else is as it was. -/
def Saved (conditions : Conditions) (request : Request) (report : Report)
    (before after : FileSystem) : Prop :=
  ∃ p q location, Project.openAt before conditions request.project = .ok p ∧
    p.register request.paths = ⟨.ok report, q⟩ ∧
    before.resolve p.path = some location ∧
    after.content? location = some q.write.toUTF8 ∧
    ∀ other, other ≠ location → after.entry? other = before.entry? other

lemma saved_of_save {p q : Project} {report : Report} {files : FileSystem}
    (hopen : Project.openAt fs conditions request.project = .ok p)
    (hregister : p.register request.paths = ⟨.ok report, q⟩)
    (hsave : q.save fs conditions = (.ok (), files)) :
    Saved conditions request report fs files := by
  obtain ⟨location, hlocation⟩ := Project.exists_resolve_of_openAt hopen
  have hpath : q.path = p.path := by
    rw [← Project.path_register p request.paths, hregister]
  exact ⟨p, q, location, hopen, hregister, hlocation,
    FileSystem.replaceFile_of_resolve (hpath ▸ hlocation) hsave⟩

lemma Request.files_eq_of_dryRun
    (h : request.run (.ofConditions conditions) ⟨fs, ""⟩ = (result, after))
    (hdry : request.dryRun = true) : after.files = fs := by
  rcases Request.run_cases h with ⟨-, hsame, -⟩ | ⟨p, report, q, -, -, ⟨-, hsame⟩ | ⟨hsaves, -⟩, -⟩
  · exact hsame
  · exact hsame
  · rw [hdry] at hsaves
    cases hsaves

/-- A run that fails has changed nothing, unless it is the report that could not be printed. -/
lemma Request.files_of_exitCode_ne_zero
    (h : request.run (.ofConditions conditions) ⟨fs, ""⟩ = (result, after))
    (hcode : result.exitCode ≠ 0) :
    after.files = fs ∨ result.exitCode = 1 ∧ request.dryRun = false ∧
      ∃ report, (conditions.printing (reportOutput request report)).isSome = true ∧
        Saved conditions request report fs after.files := by
  rcases Request.run_cases h with ⟨-, hsame, -⟩ |
    ⟨p, report, q, hopen, hregister, hfiles, ⟨-, hzero, -⟩ | ⟨hrefused, hone⟩⟩
  · exact .inl hsame
  · exact absurd hzero hcode
  · rcases hfiles with ⟨-, hsame⟩ | ⟨hsaves, hsave⟩
    · exact .inl hsame
    · exact .inr ⟨hone, hsaves, report, hrefused, saved_of_save hopen hregister hsave⟩

lemma Request.exists_saved
    (h : request.run (.ofConditions conditions) ⟨fs, ""⟩ = (result, after))
    (hcode : result.exitCode = 0) (hsaves : request.dryRun = false) :
    ∃ report, Saved conditions request report fs after.files := by
  rcases Request.run_cases h with ⟨hfailed, -⟩ | ⟨p, report, q, hopen, hregister, hfiles, -⟩
  · exact absurd hcode hfailed
  · rcases hfiles with ⟨hdry, -⟩ | ⟨-, hsave⟩
    · rw [hdry] at hsaves
      cases hsaves
    · exact ⟨report, saved_of_save hopen hregister hsave⟩

/-! ## Dry runs -/

/-- Two outputs are the same but for the word on saving. -/
def SameButForSaving (json : Bool) (dry saved : String) : Prop :=
  if json then
    ∃ first rest, dry = (Json.object (first ++ ("saved", .bool false) :: rest)).text ∧
      saved = (Json.object (first ++ ("saved", .bool true) :: rest)).text
  else
    ∃ body rest, dry = body ++ ("Dry run, not saved: " ++ rest) ∧ saved = body ++ ("Saved " ++ rest)

/-- The same report, for a dry run and for one that saves. -/
lemma sameButForSaving_reportOutput (hdry : request.dryRun = false) (report : Report) :
    SameButForSaving request.json (reportOutput (request.withDryRun true) report)
      (reportOutput request report) := by
  unfold SameButForSaving
  split
  · next hjson =>
    refine ⟨[("success", .bool true), ("result_code", .number 0),
      ("project", .string request.project)], [("files_created", .number report.filesCreated),
      ("groups_created", .number report.groupsCreated),
      ("paths", .list (report.paths.map registrationJson))], ?_, ?_⟩
    · rw [reportOutput, Request.withDryRun, if_pos hjson]
      rfl
    · rw [reportOutput, if_pos hjson, reportJson, hdry]
      rfl
  · next hjson =>
    refine ⟨String.join ((report.paths.flatMap fun r =>
        r.groupsCreated.map ("Created group " ++ ·) ++ [registrationLine r]).map (· ++ "\n")),
      request.project ++ (" (" ++ (toString report.filesCreated ++ (" files, " ++
        (toString report.groupsCreated ++ (" groups added)" ++ "\n"))))), ?_, ?_⟩
    · simp [reportOutput, reportLines, Request.withDryRun, hjson, String.join_append,
        String.join_cons, String.join_nil, String.append_assoc]
    · simp [reportOutput, reportLines, hdry, hjson, String.join_append, String.join_cons,
        String.join_nil, String.append_assoc]

/-- A run that saves and a dry run both load the same project and register the same paths. -/
lemma Request.exists_report {dry : Result} {seen : World}
    (h : request.run (.ofConditions conditions) ⟨fs, ""⟩ = (result, after))
    (hdry : (request.withDryRun true).run (.ofConditions conditions') ⟨fs, ""⟩ = (dry, seen))
    (hsaves : request.dryRun = false) (hcode : result.exitCode = 0) (hdryCode : dry.exitCode = 0) :
    ∃ report, seen.output = reportOutput (request.withDryRun true) report ∧
      after.output = reportOutput request report ∧
      SameButForSaving request.json seen.output after.output := by
  rcases Request.run_cases h with ⟨hfailed, -⟩ |
    ⟨p, report, q, hopen, hregister, -, ⟨-, -, houtput⟩ | ⟨-, hone⟩⟩
  · exact absurd hcode hfailed
  · rcases Request.run_cases hdry with ⟨hfailed, -⟩ |
      ⟨p', report', q', hopen', hregister', -, ⟨-, -, houtput'⟩ | ⟨-, hone⟩⟩
    · exact absurd hdryCode hfailed
    · obtain rfl := Project.eq_of_openAt hopen' hopen
      cases hregister'.symm.trans hregister
      refine ⟨report, houtput', houtput, ?_⟩
      rw [houtput', houtput]
      exact sameButForSaving_reportOutput hsaves report
    · rw [hdryCode] at hone
      cases hone
  · rw [hcode] at hone
    cases hone

/-- A dry run leaves all files as they were.  So does a run that fails, unless the project was saved
and it is the report that could not be printed.  After a run that succeeds and is not dry, the file
that the project was loaded from holds the text of the project with the paths registered, and
nothing else is different.  With the flag for a dry run added, the report is the same but for the
word on saving, and this under any conditions that let the dry run succeed. -/
theorem run_changes_project_file_or_nothing {read : List String → Invocation}
    (hread : ReadsDryRun read) {arguments : List String} {request : Request}
    (hrequest : read arguments = .register request) {conditions : Conditions} {fs : FileSystem}
    {result : Result} {after : World}
    (hrun : (read arguments).runOn conditions fs = (result, after)) :
    (AsksForDryRun arguments → after.files = fs) ∧
    (result.exitCode ≠ 0 → after.files = fs ∨ result.exitCode = 1 ∧ ¬ AsksForDryRun arguments ∧
      ∃ report, (conditions.printing (reportOutput request report)).isSome = true ∧
        Saved conditions request report fs after.files) ∧
    (result.exitCode = 0 → ¬ AsksForDryRun arguments →
      ∃ report, Saved conditions request report fs after.files) ∧
    (¬ AsksForDryRun arguments → ∀ before rest, arguments = before ++ rest → "--" ∉ before →
      ∀ conditions' dry seen,
        (read (before ++ "--dry-run" :: rest)).runOn conditions' fs = (dry, seen) →
        dry.exitCode = 0 → result.exitCode = 0 →
        ∃ report, seen.output = reportOutput (request.withDryRun true) report ∧
          after.output = reportOutput request report ∧
          SameButForSaving request.json seen.output after.output) := by
  rw [hrequest] at hrun
  have hasks := hread.dryRun_iff hrequest
  have hsaves : request.dryRun = false ↔ ¬ AsksForDryRun arguments := by
    rw [← hasks, Bool.not_eq_true]
  refine ⟨?_, ?_, ?_, ?_⟩
  · intro hdry
    exact Request.files_eq_of_dryRun hrun (hasks.mpr hdry)
  · intro hcode
    rw [← hsaves]
    exact Request.files_of_exitCode_ne_zero hrun hcode
  · intro hcode hnot
    exact Request.exists_saved hrun hcode (hsaves.mpr hnot)
  · rintro hnot before rest rfl hbefore conditions' dry seen hdry hdryCode hcode
    rw [hread.insert hbefore hrequest hnot] at hdry
    exact Request.exists_report hrun hdry (hsaves.mpr hnot) hcode hdryCode

/-! ## A sample -/

/-- A working directory with a bundle in it. -/
def sampleFiles : FileSystem where
  entries := [(["work"], .directory false), (["work", "Sample.xcodeproj"], .directory false),
    (["work", "Sample.xcodeproj", projectFileName], .file Project.sampleProject.write.toUTF8)]
  workingDirectory := ["work"]

/-- Where the project file is. -/
def sampleLocation : Location :=
  ["work", "Sample.xcodeproj", projectFileName]

/-- The bundle is named, and the paths are the sample paths. -/
def sampleArguments : List String :=
  "Sample.xcodeproj" :: Project.samplePaths

/-- What these arguments ask for. -/
def sampleRequest : Request :=
  ⟨"Sample.xcodeproj", Project.samplePaths, false, false, false⟩

lemma ofArguments_sampleArguments :
    Invocation.ofArguments sampleArguments = .register sampleRequest := by
  decide

lemma openAt_sampleFiles (hhidden : ∀ path, conditions.isHidden path = false)
    (hreading : ∀ path, conditions.reading path = none) :
    Project.openAt sampleFiles conditions "Sample.xcodeproj" = .ok Project.sampleProject := by
  have hseen : ∀ path, sampleFiles.seen? conditions path = sampleFiles.at? path := by
    intro path
    rw [FileSystem.seen?, hhidden, if_neg Bool.false_ne_true]
  have hbundle : sampleFiles.at? "Sample.xcodeproj" = some (.directory false) := rfl
  have hfile : sampleFiles.at? (Path.inside "Sample.xcodeproj" projectFileName) =
      some (.file Project.sampleProject.write.toUTF8) := rfl
  have hfound : sampleFiles.findProject conditions "Sample.xcodeproj" =
      .file Project.sampleProject.path Project.sampleProject.write.toUTF8 := by
    simp only [FileSystem.findProject, hseen, hbundle, hfile, FileSystem.read, hreading]
    rfl
  have htext : String.fromUTF8? Project.sampleProject.write.toUTF8 =
      some Project.sampleProject.write := dif_pos Project.sampleProject.write.isValidUTF8
  rw [Project.openAt, hfound, Project.ofFound, htext]
  exact Project.load_sampleProject

lemma exists_register_sample : ∃ report q,
    Project.sampleProject.register sampleRequest.paths = ⟨.ok report, q⟩ := by
  obtain ⟨report, hreport⟩ := Project.exists_report_sample
  exact ⟨report, _, Attempt.eq_of_result_eq_ok hreport⟩

/-- Whatever is printed of the report, the project file is replaced. -/
lemma run_sampleFiles {printing : String → Option (Nat × String)}
    (hrun : (Invocation.register sampleRequest).runOn
      { Conditions.undisturbed with printing } sampleFiles = (result, after)) :
    ∃ report q, Project.sampleProject.register sampleRequest.paths = ⟨.ok report, q⟩ ∧
      after.files = sampleFiles.set sampleLocation (.file q.write.toUTF8) ∧
      (printing (reportOutput sampleRequest report) = none ∧ result.exitCode = 0 ∨
        (printing (reportOutput sampleRequest report)).isSome = true ∧ result.exitCode = 1) := by
  have hopen := @openAt_sampleFiles { Conditions.undisturbed with printing } (fun _ => rfl)
    fun _ => rfl
  obtain ⟨report, q, hregister⟩ := exists_register_sample
  have hsave : q.save sampleFiles { Conditions.undisturbed with printing } =
      (.ok (), sampleFiles.set sampleLocation (.file q.write.toUTF8)) := by
    have hpath : q.path = Project.sampleProject.path := by
      rw [← Project.path_register Project.sampleProject sampleRequest.paths, hregister]
    have hdestination : sampleFiles.destination? Project.sampleProject.path =
        some sampleLocation := by decide +kernel
    have hdraft : sampleFiles.draft? .undisturbed Project.sampleProject.path =
        some ["work", "Sample.xcodeproj", ".tmp000000"] := by decide +kernel
    rw [Project.save, Project.writeTo, hpath]
    exact FileSystem.replaceFile_eq_ok (fun _ => rfl) hdraft hdestination _
  rcases Request.run_cases hrun with ⟨-, -, hunsaved⟩ |
    ⟨p, report', q', hopen', hregister', hfiles, hprinted⟩
  · exact absurd hsave ((hunsaved _ _ _ hopen hregister).2 _)
  · obtain rfl := Project.eq_of_openAt hopen' hopen
    cases hregister'.symm.trans hregister
    rcases hfiles with ⟨hdry, -⟩ | ⟨-, hsaved⟩
    · cases hdry
    · rw [hsave] at hsaved
      refine ⟨report, q, hregister, (congrArg Prod.snd hsaved).symm, ?_⟩
      exact hprinted.imp_left fun h => ⟨h.1, h.2.1⟩

/-- Registering the sample paths makes another text. -/
lemma write_ne_of_register_sample {report : Report} {q : Project}
    (h : Project.sampleProject.register sampleRequest.paths = ⟨.ok report, q⟩) :
    q.write ≠ Project.sampleProject.write := by
  have hedits := Project.edits_register Project.sampleProject sampleRequest.paths
  have hcount : (Project.sampleProject.register sampleRequest.paths).state.objectCount ≠
      Project.sampleProject.objectCount := by decide +kernel
  rw [h] at hedits hcount
  intro hwrite
  have hload := Project.load_write (hedits.loadable Project.loadable_sampleProject)
    (hedits.kindsStayInComments (by decide))
  have hpath : q.path = Project.sampleProject.path := by
    rw [← Project.path_register Project.sampleProject sampleRequest.paths, h]
  rw [hwrite, hpath, Project.load_sampleProject] at hload
  exact hcount (congrArg Project.objectCount (Except.ok.inj hload).symm)

/-- Nothing can be printed. -/
def fullTerminal : Conditions :=
  { Conditions.undisturbed with
    printing := fun _ => some (0, "No space left on device (os error 28)") }

/-- Where nothing can be printed, the run has failed and the project file is another one. -/
theorem unprinted_report_leaves_project_saved :
    ∃ result after,
      (Invocation.ofArguments sampleArguments).runOn fullTerminal sampleFiles = (result, after) ∧
      result.exitCode = 1 ∧
      after.files.content? sampleLocation ≠ sampleFiles.content? sampleLocation := by
  rw [ofArguments_sampleArguments]
  generalize hrun : (Invocation.register sampleRequest).runOn fullTerminal sampleFiles = outcome
  obtain ⟨result, after⟩ := outcome
  obtain ⟨report, q, hregister, hfiles, ⟨hprinted, -⟩ | ⟨-, hcode⟩⟩ := run_sampleFiles hrun
  · cases hprinted
  · refine ⟨result, after, rfl, hcode, ?_⟩
    have hbefore : sampleFiles.content? sampleLocation =
        some Project.sampleProject.write.toUTF8 := rfl
    rw [hfiles, hbefore, FileSystem.content?, FileSystem.entry_set _ (by decide), if_pos rfl]
    intro hsame
    have hbytes : q.write.toUTF8 = Project.sampleProject.write.toUTF8 := Option.some.inj hsame
    exact write_ne_of_register_sample hregister (String.toByteArray_inj.mp hbytes)

/-- Drafts are not brought to the disk. -/
def fullDisk : Conditions :=
  { Conditions.undisturbed with
    writing := fun _ step =>
      if step = .sync then some "No space left on device (os error 28)" else none }

lemma exitCode_dryRun_sample
    (hrun : (Invocation.register (sampleRequest.withDryRun true)).runOn .undisturbed sampleFiles =
      (result, after)) : result.exitCode = 0 := by
  have hopen := @openAt_sampleFiles .undisturbed (fun _ => rfl) fun _ => rfl
  obtain ⟨report, q, hregister⟩ := exists_register_sample
  rcases Request.run_cases hrun with ⟨-, -, hunsaved⟩ |
    ⟨_, _, _, -, -, -, ⟨-, hcode, -⟩ | ⟨hrefused, -⟩⟩
  · cases (hunsaved _ _ _ hopen hregister).1
  · exact hcode
  · cases hrefused

lemma exitCode_fullDisk_sample
    (hrun : (Invocation.register sampleRequest).runOn fullDisk sampleFiles = (result, after)) :
    result.exitCode ≠ 0 := by
  rcases Request.run_cases hrun with ⟨hcode, -⟩ | ⟨p, report, q, -, -, ⟨hdry, -⟩ | ⟨-, hsave⟩, -⟩
  · exact hcode
  · cases hdry
  · have hsync : fullDisk.writing q.path .sync =
        some "No space left on device (os error 28)" := rfl
    obtain ⟨reason, hfails⟩ :=
      FileSystem.exists_error_of_writing hsync sampleFiles q.write.toUTF8
    cases hfails.symm.trans hsave

/-- On the sample: a run that saves and a dry run, which report the same, and a run that fails. -/
theorem run_changes_project_file_or_nothing_sample :
    (∃ result after dry seen,
      (Invocation.ofArguments sampleArguments).runOn .undisturbed sampleFiles = (result, after) ∧
      (Invocation.ofArguments ("--dry-run" :: sampleArguments)).runOn .undisturbed sampleFiles =
        (dry, seen) ∧
      result.exitCode = 0 ∧ dry.exitCode = 0 ∧
      (∃ report, Saved .undisturbed sampleRequest report sampleFiles after.files) ∧
      seen.files = sampleFiles ∧ SameButForSaving false seen.output after.output) ∧
    ∃ result after,
      (Invocation.ofArguments sampleArguments).runOn fullDisk sampleFiles = (result, after) ∧
      result.exitCode ≠ 0 ∧ after.files = sampleFiles := by
  have hread := readsDryRun_ofArguments
  have hrequest := ofArguments_sampleArguments
  have hdryRequest : Invocation.ofArguments ("--dry-run" :: sampleArguments) =
      .register (sampleRequest.withDryRun true) := by decide
  have hasks : ¬ AsksForDryRun sampleArguments := by decide
  constructor
  · generalize hrun :
      (Invocation.ofArguments sampleArguments).runOn .undisturbed sampleFiles = outcome
    generalize hdry : (Invocation.ofArguments ("--dry-run" :: sampleArguments)).runOn .undisturbed
      sampleFiles = dryOutcome
    obtain ⟨result, after⟩ := outcome
    obtain ⟨dry, seen⟩ := dryOutcome
    have hcode : result.exitCode = 0 := by
      rw [hrequest] at hrun
      obtain ⟨-, -, -, -, ⟨-, hcode⟩ | ⟨hprinted, -⟩⟩ := run_sampleFiles hrun
      · exact hcode
      · cases hprinted
    have hdryCode : dry.exitCode = 0 := by
      rw [hdryRequest] at hdry
      exact exitCode_dryRun_sample hdry
    obtain ⟨-, -, hsaved, hreports⟩ := run_changes_project_file_or_nothing hread hrequest hrun
    obtain ⟨hkept, -⟩ := run_changes_project_file_or_nothing hread hdryRequest hdry
    obtain ⟨-, -, -, hsame⟩ := hreports hasks [] sampleArguments rfl List.not_mem_nil .undisturbed
      dry seen hdry hdryCode hcode
    exact ⟨result, after, dry, seen, rfl, rfl, hcode, hdryCode, hsaved hcode hasks,
      hkept (by decide), hsame⟩
  · generalize hrun : (Invocation.ofArguments sampleArguments).runOn fullDisk sampleFiles = outcome
    obtain ⟨result, after⟩ := outcome
    have hcode : result.exitCode ≠ 0 := by
      rw [hrequest] at hrun
      exact exitCode_fullDisk_sample hrun
    obtain ⟨-, hfailed, -⟩ := run_changes_project_file_or_nothing hread hrequest hrun
    refine ⟨result, after, rfl, hcode, ?_⟩
    rcases hfailed hcode with hsame | ⟨-, -, report, hrefused, -⟩
    · exact hsame
    · cases hrefused

end CommandLine

end XcodeProject
