import Mathlib
import XcodeProject.Proofs.Registration.Attachment

/-!
# A file is attached once

Attaching a file to a target says whether anything has changed.  It looks for the first phase of the
right kind that the target lists, makes one if there is none, and looks for an entry of this phase
before it makes one.  The second time the phase must be the same and the entry must be found, and
then nothing is made (`attach_of_builds`).

The caller may name any object as the target, and lists may have ids without an object.  So the new
ids can be in the lists that are searched, before and after.  This does no harm: a build file is not
of the kind that is looked for, and a new phase is the one that is wanted.
-/

namespace XcodeProject.Project

variable {p q : Project} {target : Target} {file : ObjectId}

/-- A file reference stays one, with the same strings. -/
lemma Inserts.fileReference? {made : List Inserted} (h : Inserts p made q) {reference : Object}
    (hreference : p.fileReference? file = some reference) :
    ∃ reference', q.fileReference? file = some reference' ∧
      ∀ key, reference'.text? key = reference.text? key := by
  obtain ⟨hobject, hkind⟩ := Option.filter_eq_some_iff.mp hreference
  obtain ⟨reference', hobject', hextends⟩ := h.additions.extends.object? hobject
  refine ⟨reference', Option.filter_eq_some_iff.mpr ⟨hobject', ?_⟩, hextends.text?_eq⟩
  rwa [hextends.text?_eq]

/-- A target that accepts files is given file references only. -/
lemma exists_fileReference?_of_attach {attachment : Attachment}
    (haccepts : target.acceptsFiles = true) (h : p.attach target file = ⟨.ok attachment, q⟩) :
    ∃ reference, p.fileReference? file = some reference := by
  unfold attach at h
  rw [if_pos haccepts] at h
  split at h
  · cases h
  · next reference hreference => exact ⟨reference, hreference⟩

lemma acceptsFiles_of_attach {attachment : Attachment} (hnew : attachment.isNew = true)
    (h : p.attach target file = ⟨.ok attachment, q⟩) : target.acceptsFiles = true := by
  unfold attach at h
  split at h
  · next haccepts => exact haccepts
  · cases h
    cases hnew

/-- Nothing is made for a target that builds the file. -/
lemma attach_of_builds {reference : Object} (haccepts : target.acceptsFiles = true)
    (hreference : p.fileReference? file = some reference)
    (hbuilds : p.Builds target.id file ((reference.text? "path").getD "")) :
    p.attach target file = ⟨.ok .present, p⟩ := by
  obtain ⟨phase, entry, hphase, hentry, hfile⟩ := hbuilds
  obtain ⟨object, hobject, -⟩ :=
    ObjectTable.exists_of_mem_ids (List.mem_of_find?_eq_some hphase)
  have hobject : p.object? target.id = some object := hobject
  have hholds : p.phaseHolds phase file = true := phaseHolds_iff.mpr ⟨entry, hentry, hfile⟩
  rw [firstPhase?, ids_of_object? hobject] at hphase
  unfold attach
  rw [if_pos haccepts, hreference]
  simp only [ensurePhase_eq, hobject, hphase, Attempt.andThen_ok, addBuildFile_eq, if_pos hholds]

/-- What is new after a file was attached: a build file for it and at most a phase. -/
lemma isNew_of_attach {buildFile : ObjectId} {phase : Phase}
    (h : p.attach target file = ⟨.ok (.added buildFile phase), q⟩) (id : ObjectId) :
    p.objects.IsNew q.objects id ↔ id = buildFile ∨ phase.isNew = true ∧ id = phase.id := by
  rw [(inserts_attach h).isNew_iff, Attachment.record, Phase.record]
  split
  · next hnew => simp [hnew, or_comm]
  · next hold => simp [hold]

lemma kind?_phase_of_attach {buildFile : ObjectId} {phase : Phase}
    (h : p.attach target file = ⟨.ok (.added buildFile phase), q⟩) :
    ∃ path, q.objects.kind? phase.id = some (phaseKind path) := by
  unfold attach at h
  split at h
  · split at h
    · cases h
    · obtain ⟨found, middle, hphase, hadd⟩ := Attempt.andThen_eq_ok h
      have hkind := kind?_ensurePhase hphase
      rcases inserts_addBuildFile hkind hadd with ⟨-, hpresent, -⟩ | ⟨id, hadded, hinserts⟩
      · cases hpresent
      · cases hadded
        exact ⟨_, hinserts.edits.text?_eq hkind⟩
  · cases h

/-- Whatever is named as the target, attaching a file tells whether the project has changed.  If it
has, there is one new build file, which is for the file, and at most one new phase, and attaching the
file again changes nothing.  A native target builds the file afterwards. -/
theorem attaching_again_changes_nothing {attachment : Attachment}
    (h : p.attach target file = ⟨.ok attachment, q⟩) :
    (attachment.isNew = false → q = p) ∧
    (attachment.isNew = true → ∃ buildFile phase, attachment = .added buildFile phase ∧
      (∀ id, p.objects.IsNew q.objects id ↔
        id = buildFile ∨ phase.isNew = true ∧ id = phase.id) ∧
      q.objects.kind? buildFile = some Kind.buildFile ∧
      q.objects.text? buildFile "fileRef" = some file ∧
      (∃ path, q.objects.kind? phase.id = some (phaseKind path)) ∧
      ∃ again, again.isNew = false ∧ q.attach target file = ⟨.ok again, q⟩) ∧
    (target.kind = Kind.nativeTarget → file ∈ q.buildFiles target.id) := by
  have hinserts := inserts_attach h
  refine ⟨?_, ?_, ?_⟩
  · intro hold
    cases attachment with
    | added buildFile phase => cases hold
    | present => exact hinserts.eq_of_nil
    | declined => exact hinserts.eq_of_nil
  · intro hnew
    have haccepts := acceptsFiles_of_attach hnew h
    obtain ⟨reference, hreference⟩ := exists_fileReference?_of_attach haccepts h
    have hbuilds := builds_attach haccepts hreference h
    obtain ⟨reference', hreference', htext⟩ := hinserts.fileReference? hreference
    rw [← htext] at hbuilds
    have hagain := attach_of_builds haccepts hreference' hbuilds
    cases attachment with
    | added buildFile phase =>
      have hmade : ⟨.buildFile phase.id file, buildFile, true⟩ ∈
          (Attachment.added buildFile phase).record target.id file :=
        List.mem_append_right _ List.mem_cons_self
      exact ⟨buildFile, phase, rfl, isNew_of_attach h, hinserts.text?_of_mem hmade "isa",
        hinserts.text?_of_mem hmade "fileRef", kind?_phase_of_attach h, .present, rfl, hagain⟩
    | present => cases hnew
    | declined => cases hnew
  · intro hnative
    have haccepts : target.acceptsFiles = true := decide_eq_true hnative
    obtain ⟨reference, hreference⟩ := exists_fileReference?_of_attach haccepts h
    obtain ⟨phase, entry, hphase, hentry, hfile⟩ := builds_attach haccepts hreference h
    exact mem_buildFiles hphase hentry hfile

/-- The file reference itself is named as the target, and gets a phase with a build file for itself. -/
theorem attaching_again_changes_nothing_itself :
    ∃ buildFile phase q, sampleProject.attach ⟨"FILE", "", Kind.nativeTarget⟩ "FILE" =
        ⟨.ok (.added buildFile phase), q⟩ ∧ phase.isNew = true ∧
      (∃ again, again.isNew = false ∧
        q.attach ⟨"FILE", "", Kind.nativeTarget⟩ "FILE" = ⟨.ok again, q⟩) ∧
      "FILE" ∈ q.buildFiles "FILE" := by
  have hresult : (sampleProject.attach ⟨"FILE", "", Kind.nativeTarget⟩ "FILE").result.toOption.map
      (fun attachment => (attachment.record "FILE" "FILE").length) = some 2 := by decide +kernel
  obtain ⟨attachment, hattachment, hlength⟩ := Option.map_eq_some_iff.mp hresult
  have hattach := Attempt.eq_of_result_eq_ok (Attempt.result_eq_ok hattachment)
  cases attachment with
  | added buildFile phase =>
    have hphase : phase.isNew = true := by
      by_contra hold
      rw [Attachment.record, Phase.record, if_neg hold] at hlength
      cases hlength
    obtain ⟨-, hnew, hbuilt⟩ := attaching_again_changes_nothing hattach
    obtain ⟨-, -, -, -, -, -, -, hagain⟩ := hnew rfl
    exact ⟨buildFile, phase, _, hattach, hphase, hagain, hbuilt rfl⟩
  | present => cases hlength
  | declined => cases hlength

end XcodeProject.Project
