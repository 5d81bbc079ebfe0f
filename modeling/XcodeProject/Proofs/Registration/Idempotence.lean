import Mathlib
import XcodeProject.Proofs.Project.Reload
import XcodeProject.Proofs.Registration.PathWalk

/-!
# Registering paths again

A path that is settled is found again: going down its directories meets the groups that are there,
and nothing is made (`registerPath_of_settled`).  After a run every path of it is settled, so a
second run of the same paths leaves the project as it is.  Since the project can be loaded from its
own text, the second run may as well be of a project that was saved and loaded in between.
-/

namespace XcodeProject.Project

open Document (KindsStayInComments)
open Registrar (Way)

/-- A registration that finds what another one found or made, and makes nothing. -/
structure Repeats (first again : Registration) : Prop where
  /-- Nothing is made for the path. -/
  outcome_eq : again.outcome = .existing ∨ again.outcome = .skipped
  /-- The file is the same. -/
  file_eq : again.file = first.file
  /-- No group is made. -/
  groupsCreated_eq : again.groupsCreated = []
  /-- No target gets the file. -/
  targets_eq : again.targets = []

/-! ## Paths that are settled -/

section Settled

variable {p : Project} {group : ObjectId}

lemma descend_of_leads {directories : List String} {way : Way}
    (h : p.Leads group directories way) (walked created : List String) :
    descend group walked created directories p = ⟨.ok (way, created), p⟩ := by
  induction directories generalizing group walked with
  | nil =>
    cases way with
    | toGroup stop =>
      cases h
      rfl
    | intoFolder folder =>
      obtain ⟨stop, last, hwalk, -⟩ := h
      cases hwalk
  | cons directory rest ih =>
    cases hfirst : p.firstChild? .group directory group with
    | some next =>
      obtain ⟨nodes, hchildren, hnode⟩ := firstChild?_eq_some.mp hfirst
      rw [descend, hchildren]
      simp only [hnode]
      exact ih ((leads_cons hfirst).mp h) _
    | none =>
      -- Only a synchronized folder can go on here.
      have hblocked := walk_cons_of_none hfirst rest
      cases way with
      | toGroup stop =>
        rw [Leads, hblocked] at h
        cases h
      | intoFolder folder =>
        obtain ⟨stop, last, hwalk, hfolder⟩ := h
        rw [hblocked] at hwalk
        cases hwalk
        obtain ⟨nodes, hchildren, hnode⟩ := firstChild?_eq_some.mp hfolder
        rw [firstChild?_of_children hchildren] at hfirst
        rw [descend, hchildren]
        simp only [hfirst, hnode]

lemma registerFile_of_firstChild? {fileName : String} {file : ObjectId}
    (h : p.firstChild? .file fileName group = some file) (path : String)
    (created : List String) : p.registerFile path group fileName created =
      ⟨.ok ⟨path, .existing, some file, created, []⟩, p⟩ := by
  obtain ⟨nodes, hchildren, hnode⟩ := firstChild?_eq_some.mp h
  simp only [registerFile, hchildren, hnode]

theorem registerPath_of_settled {path : String} {first : Registration}
    (h : p.Settled path first) :
    ∃ again, p.registerPath path = ⟨.ok again, p⟩ ∧ Repeats first again := by
  unfold Settled at h
  unfold registerPath
  cases hsplit : Path.split path with
  | none =>
    rw [hsplit] at h
    obtain ⟨-, hfile⟩ := h
    exact ⟨_, rfl, .inr rfl, hfile.symm, rfl, rfl⟩
  | some parts =>
    rw [hsplit] at h
    simp only
    rcases h.reached with ⟨group, file, hwalk, hfirst, hfile, -⟩ |
      ⟨group, directory, folder, hwalk, hfolder, -, hfile⟩
    · have hleads : p.Leads p.mainGroup parts.directories (.toGroup group) := hwalk
      rw [descend_of_leads hleads, Attempt.andThen_ok]
      exact ⟨_, registerFile_of_firstChild? hfirst path [], .inl rfl, hfile.symm, rfl, rfl⟩
    · have hleads : p.Leads p.mainGroup parts.directories (.intoFolder folder) :=
        ⟨group, directory, hwalk, hfolder⟩
      rw [descend_of_leads hleads, Attempt.andThen_ok]
      exact ⟨_, rfl, .inl rfl, hfile.symm, rfl, rfl⟩

lemma registerPaths_of_settled {paths : List String} {firsts : List Registration}
    (h : List.Forall₂ p.Settled paths firsts) :
    ∃ agains, registerPaths paths p = ⟨.ok agains, p⟩ ∧ List.Forall₂ Repeats firsts agains := by
  induction h with
  | nil => exact ⟨[], rfl, .nil⟩
  | cons hsettled _ ih =>
    obtain ⟨again, hagain, hrepeats⟩ := registerPath_of_settled hsettled
    obtain ⟨agains, hagains, hall⟩ := ih
    refine ⟨again :: agains, ?_, .cons hrepeats hall⟩
    rw [registerPaths, hagain, Attempt.andThen_ok, hagains, Attempt.andThen_ok]

end Settled

/-! ## Runs -/

lemma changed_eq_false {firsts agains : List Registration}
    (h : List.Forall₂ Repeats firsts agains) : (Report.mk agains).changed = false := by
  have hnothing : ∀ again ∈ agains, again.outcome ≠ .created ∧ again.groupsCreated = [] := by
    induction h with
    | nil => simp
    | cons hrepeats _ ih =>
      refine List.forall_mem_cons.mpr ⟨⟨?_, hrepeats.groupsCreated_eq⟩, ih⟩
      rcases hrepeats.outcome_eq with houtcome | houtcome <;> simp [houtcome]
  have hfiles : (Report.mk agains).filesCreated = 0 := by
    unfold Report.filesCreated Report.count
    rw [List.countP_eq_zero]
    intro again hagain
    simpa using (hnothing again hagain).1
  have hgroups : (Report.mk agains).groupsCreated = 0 := by
    unfold Report.groupsCreated
    rw [List.length_eq_zero_iff, List.flatMap_eq_nil_iff]
    intro again hagain
    exact (hnothing again hagain).2
  simp [Report.changed, hfiles, hgroups]

/-- A run of paths that are settled finds all of them and leaves the project as it is. -/
lemma register_of_settled {p : Project} (hp : p.ChildrenListed) {paths : List String}
    {first : Report} (h : List.Forall₂ p.Settled paths first.paths) :
    ∃ again, p.register paths = ⟨.ok again, p⟩ ∧ again.changed = false ∧
      List.Forall₂ Repeats first.paths again.paths := by
  obtain ⟨agains, hagains, hrepeats⟩ := registerPaths_of_settled h
  refine ⟨⟨agains⟩, ?_, changed_eq_false hrepeats, hrepeats⟩
  rw [register_eq hp, hagains]
  rfl

lemma childrenListed_register {p : Project} (hp : p.ChildrenListed) (paths : List String) :
    (p.register paths).state.ChildrenListed := by
  rw [register_eq hp]
  exact childrenListed_registerPaths hp paths

/-- Paths that were registered in a loaded project are there when they are registered again, be it
in the project as it is then or in the one that is loaded from its text. -/
theorem registering_again_changes_nothing {text path : String} {p : Project}
    (hload : load text path = .ok p) (hp : p.ChildrenListed)
    (hkinds : KindsStayInComments p.objects) {paths : List String} {first : Report}
    (hfirst : (p.register paths).result = .ok first) :
    ∃ reloaded,
      load (p.register paths).state.write (p.register paths).state.path = .ok reloaded ∧
      ∀ q ∈ [(p.register paths).state, reloaded], ∃ again,
        (q.register paths).result = .ok again ∧ again.changed = false ∧
        List.Forall₂ Repeats first.paths again.paths ∧
        (q.register paths).state.write = (p.register paths).state.write := by
  have hsettled := settled_of_register hp hfirst
  have hlisted := childrenListed_register hp paths
  have hedits := edits_register p paths
  have hreload := load_write (hedits.loadable (loadable_of_load hload).1)
    (hedits.kindsStayInComments hkinds)
  generalize (p.register paths).state = after at hsettled hlisted hreload ⊢
  obtain ⟨again, hagain, hchanged, hrepeats⟩ := register_of_settled hlisted hsettled
  refine ⟨after, hreload, ?_⟩
  intro q hq
  have hq : q = after := by simpa using hq
  subst hq
  rw [hagain]
  exact ⟨again, rfl, hchanged, hrepeats, rfl⟩

lemma loadable_sampleProject : sampleProject.Loadable := by
  decide

lemma load_sampleProject : load sampleProject.write sampleProject.path = .ok sampleProject :=
  load_write loadable_sampleProject (by decide)

theorem registering_again_changes_nothing_sample :
    load sampleProject.write sampleProject.path = .ok sampleProject ∧
    sampleProject.ChildrenListed ∧ KindsStayInComments sampleProject.objects ∧
    ∃ first reloaded again, (sampleProject.register samplePaths).result = .ok first ∧
      load (sampleProject.register samplePaths).state.write
        (sampleProject.register samplePaths).state.path = .ok reloaded ∧
      (reloaded.register samplePaths).result = .ok again ∧ again.changed = false ∧
      List.Forall₂ Repeats first.paths again.paths := by
  have hkinds : KindsStayInComments sampleProject.objects := by decide
  have hload := load_write loadable_sampleProject hkinds
  have hlisted := childrenListed_sampleProject
  obtain ⟨first, hfirst⟩ := exists_report_sample
  obtain ⟨reloaded, hreloaded, hsame⟩ :=
    registering_again_changes_nothing hload hlisted hkinds hfirst
  obtain ⟨again, hagain, hchanged, hrepeats, -⟩ := hsame reloaded (by simp)
  exact ⟨hload, hlisted, hkinds, first, reloaded, again, hfirst, hreloaded, hagain, hchanged,
    hrepeats⟩

end XcodeProject.Project
