import Mathlib
import XcodeProject.Proofs.Project.Growth

/-!
# Every edit adds new objects to a project

Whatever is asked of a project, and whether it is refused or not, the table changes in one way only
(`Addition`): a new object goes under an id that is not in use, and this id goes to the end of a list
of an object that is there.  If that turns out not to be a list, the new object stays in the table
and nothing lists it.

What tells one edit from another is which list of which object grows.  So additions come with a rule
on the kind of the object and the key of the list.  Registration keeps to the lists of
`registeredLists`.  Attaching a file to a target by itself does not, since the caller may name any
object at all as the target.

The second half goes through a registrar from its smallest steps to a run over many paths.  What is
true of each edit that it asks for, whatever comes of it, is true of a run (`Registrar.Covers`).
-/

namespace XcodeProject

open PropertyList (Value)

namespace Project

/-! ## Additions -/

/-- A new object under an id that is not in use, and the id at the end of a list of its owner, if
the owner has a list there or nothing.  `rule` is about the owner's kind and the key of the list. -/
inductive Addition (rule : String → String → Prop) (p : Project) : Project → Prop
  /-- The owner is an object of the project, and the rule lets its list grow. -/
  | mk {owner id : ObjectId} {object made : Object} {key : String}
      (howner : p.object? owner = some object) (hrule : rule object.kind key)
      (hfresh : Dict.contains p.objects id = false) (hnew : NewObject made) :
      Addition rule p (p.addOwned owner key id made).state

/-- Additions one after the other. -/
def Additions (rule : String → String → Prop) : Project → Project → Prop :=
  Relation.ReflTransGen (Addition rule)

namespace Additions

variable {rule : String → String → Prop} {p p' p'' : Project}

lemma refl (p : Project) : Additions rule p p :=
  Relation.ReflTransGen.refl

lemma trans (h : Additions rule p p') (h' : Additions rule p' p'') : Additions rule p p'' :=
  Relation.ReflTransGen.trans h h'

instance : IsTrans Project (Additions rule) :=
  ⟨fun _ _ _ => trans⟩

lemma mono {rule' : String → String → Prop} (hrule : ∀ kind key, rule kind key → rule' kind key)
    (h : Additions rule p p') : Additions rule' p p' := by
  refine Relation.ReflTransGen.mono ?_ _ _ h
  rintro q q' ⟨howner, hlist, hfresh, hnew⟩
  exact .mk howner (hrule _ _ hlist) hfresh hnew

lemma edits {fields : List String} (hrule : ∀ kind key, rule kind key → key ∈ fields)
    (h : Additions rule p p') : Edits fields p p' := by
  induction h with
  | refl => exact .refl p
  | tail _ hadd ih =>
    obtain ⟨howner, hlist, hfresh, hnew⟩ := hadd
    exact ih.trans (edits_addOwned (hrule _ _ hlist) hfresh hnew _)

end Additions

/-! ## What the edits of a project do -/

lemma group_eq_ok {p : Project} {id : ObjectId} {object : Object} :
    p.group id = .ok object ↔ p.object? id = some object ∧ object.kind ∈ Kind.groups := by
  unfold group
  constructor
  · intro h
    split at h
    · cases h
    · next found hfound =>
      split at h
      · next hkind =>
        cases h
        exact ⟨hfound, hkind⟩
      · cases h
  · rintro ⟨hobject, hkind⟩
    simp only [hobject, if_pos hkind]

lemma object?_of_kind? {p : Project} {id : ObjectId} {kind : String}
    (h : p.objects.kind? id = some kind) : ∃ object, p.object? id = some object ∧
      object.kind = kind := by
  obtain ⟨object, hobject, hisa⟩ := Option.bind_eq_some_iff.mp h
  exact ⟨object, hobject, by rw [Object.kind, hisa, Option.getD_some]⟩

/-- A new object that its owner lists has the strings it was made with. -/
lemma text?_addOwned {p q : Project} {owner id given : ObjectId} {key field text : String}
    {made : Object} (h : p.addOwned owner key id made = ⟨.ok given, q⟩)
    (htext : made.text? field = some text) : q.objects.text? given field = some text := by
  have hmade := object?_setObject p id id made
  rw [if_pos rfl] at hmade
  unfold addOwned at h
  simp only at h
  split at h
  · next appended happend =>
    obtain ⟨object, items, howner, hitems, rfl⟩ := appendId_eq_ok happend
    have hchange : Change [key] (p.setObject id (.dictionary made)) _ :=
      .append List.mem_cons_self howner hitems (contains_of_object? hmade)
    cases h
    exact hchange.text?_eq (Option.bind_eq_some_iff.mpr ⟨made, hmade, htext⟩)
  · cases h

/-- The phase that a target has, or that is made for it, is of the kind that was asked for. -/
lemma kind?_ensurePhase {p q : Project} {target : ObjectId} {kind : String} {phase : Phase}
    (h : p.ensurePhase target kind = ⟨.ok phase, q⟩) : q.objects.kind? phase.id = some kind := by
  unfold ensurePhase at h
  split at h
  · cases h
  · split at h
    · next object _ found hfound =>
      cases h
      simpa using List.find?_some hfound
    · obtain ⟨id, made, hadd, hphase⟩ := Attempt.andThen_eq_ok h
      cases hphase
      exact text?_addOwned hadd rfl

section Additions

variable {rule : String → String → Prop} {p : Project}

lemma additions_addChild (hrule : ∀ kind ∈ Kind.groups, rule kind "children") (p : Project)
    (parent : ObjectId) (kind path : String) {made : Object} (hnew : NewObject made) :
    Additions rule p (p.addChild parent kind path made).state := by
  unfold addChild
  split
  · exact .refl p
  · next object hgroup =>
    obtain ⟨hobject, hkind⟩ := group_eq_ok.mp hgroup
    exact .single (.mk hobject (hrule _ hkind) (ObjectId.contains_fresh _ _) hnew)

lemma additions_ensurePhase {target : ObjectId}
    (hrule : ∀ object, p.object? target = some object → rule object.kind "buildPhases")
    (path : String) : Additions rule p (p.ensurePhase target (phaseKind path)).state := by
  unfold ensurePhase
  split
  · exact .refl p
  · next object hobject =>
    split
    · exact .refl p
    · refine Attempt.state_andThen (Additions rule) ?_ fun _ q _ => .refl q
      exact .single (.mk hobject (hrule object hobject) (ObjectId.contains_fresh _ _) (.phase path))

lemma additions_addBuildFile {phase : Phase} {kind : String}
    (hphase : p.objects.kind? phase.id = some kind) (hrule : rule kind "files")
    (file : ObjectId) : Additions rule p (p.addBuildFile phase file).state := by
  unfold addBuildFile
  split
  · exact .refl p
  · obtain ⟨object, hobject, rfl⟩ := object?_of_kind? hphase
    refine Attempt.state_andThen (Additions rule) ?_ fun _ q _ => .refl q
    exact .single (.mk hobject hrule (ObjectId.contains_fresh _ _) (.buildFile file))

/-- Attaching a file adds a build file and perhaps a phase. -/
theorem additions_attach {target : Target}
    (hphases : target.acceptsFiles = true →
      ∀ object, p.object? target.id = some object → rule object.kind "buildPhases")
    (hfiles : ∀ path, rule (phaseKind path) "files") (file : ObjectId) :
    Additions rule p (p.attach target file).state := by
  unfold attach
  split
  · next haccepts =>
    split
    · exact .refl p
    · refine Attempt.state_andThen (Additions rule)
        (additions_ensurePhase (hphases haccepts) _) ?_
      intro phase q hphase
      exact additions_addBuildFile (kind?_ensurePhase hphase) (hfiles _) file
  · exact .refl p

lemma edits_attach {fields : List String} (hphases : "buildPhases" ∈ fields)
    (hfiles : "files" ∈ fields) (p : Project) (target : Target) (file : ObjectId) :
    Edits fields p (p.attach target file).state := by
  have hadditions : Additions (fun _ key => key ∈ fields) p (p.attach target file).state :=
    additions_attach (fun _ _ _ => hphases) (fun _ => hfiles) file
  exact hadditions.edits fun _ _ hkey => hkey

end Additions

end Project

/-! ## What a registrar does -/

/-- The lists that registration puts ids into. -/
def listFields : List String :=
  ["children", "buildPhases", "files"]

/-- The lists that registration puts ids into, with the kinds of the objects that have them. -/
def registeredLists : List (String × String) :=
  Kind.groups.map (·, "children") ++ [(Kind.nativeTarget, "buildPhases"),
    (Kind.headersPhase, "files"), (Kind.sourcesPhase, "files")]

/-- The list with a key grows in objects of a kind when paths are registered. -/
def IsRegisteredList (kind key : String) : Prop :=
  (kind, key) ∈ registeredLists

lemma IsRegisteredList.mem_listFields {kind key : String} (h : IsRegisteredList kind key) :
    key ∈ listFields := by
  have hall : ∀ list ∈ registeredLists, list.2 ∈ listFields := by decide
  exact hall _ h

lemma isRegisteredList_children {kind : String} (h : kind ∈ Kind.groups) :
    IsRegisteredList kind "children" :=
  List.mem_append_left _ (List.mem_map_of_mem h)

lemma isRegisteredList_files (path : String) :
    IsRegisteredList (Project.phaseKind path) "files" := by
  unfold IsRegisteredList
  rcases Project.phaseKind_eq path with hkind | hkind <;> rw [hkind] <;> decide

namespace Registrar

open Project

/-- Those of the targets that take files are native targets of the project. -/
def NativeIn (p : Project) (targets : List Target) : Prop :=
  ∀ target ∈ targets, target.acceptsFiles = true →
    p.objects.kind? target.id = some Kind.nativeTarget

lemma nativeIn_targets (p : Project) : NativeIn p p.targets := by
  intro target hmem haccepts
  obtain ⟨id, -, htarget⟩ := List.mem_filterMap.mp hmem
  unfold target? at htarget
  split at htarget
  · cases htarget
  · next object hobject =>
    split at htarget
    · cases htarget
      have hkind : object.kind = Kind.nativeTarget := of_decide_eq_true haccepts
      refine Option.bind_eq_some_iff.mpr ⟨object, hobject, ?_⟩
      -- The kind is not empty, so the object does have an entry for it.
      cases hisa : object.text? "isa" with
      | none => exact absurd hkind (by rw [Object.kind, hisa]; decide)
      | some kind => rw [← hkind, Object.kind, hisa, Option.getD_some]
    · cases htarget

lemma NativeIn.additions {p p' : Project} {targets : List Target} (h : NativeIn p targets)
    (hadditions : Additions IsRegisteredList p p') : NativeIn p' targets := by
  intro target hmem haccepts
  exact (hadditions.edits fun _ _ => IsRegisteredList.mem_listFields).text?_eq
    (h target hmem haccepts)

/-! ### Whatever is true of its edits -/

/-- A relation between projects that holds of whatever a registrar with these targets asks of its
project, which are new groups, new file references and files for its targets. -/
structure Covers (targets : List Target) (R : Project → Project → Prop) : Prop where
  /-- Nothing may be asked. -/
  refl : ∀ p, R p p
  /-- A new group for a directory. -/
  newGroup : ∀ p parent directory, R p (p.newGroup parent directory directory).state
  /-- A new file reference. -/
  newFile : ∀ p parent fileName, R p (p.newFile parent fileName).state
  /-- A file for one of the targets. -/
  attach : ∀ p, ∀ target ∈ targets, ∀ file, R p (p.attach target file).state

/-- The registrar keeps its targets, and its projects before and after are related. -/
def Grows (targets : List Target) (R : Project → Project → Prop) (r r' : Registrar) : Prop :=
  r.targets = targets → r'.targets = targets ∧ R r.project r'.project

section Covers

variable {targets : List Target} {R : Project → Project → Prop}

instance [IsTrans Project R] : IsTrans Registrar (Grows targets R) := by
  refine ⟨fun r r' r'' h h' htargets => ?_⟩
  obtain ⟨htargets', hfirst⟩ := h htargets
  obtain ⟨htargets'', hsecond⟩ := h' htargets'
  exact ⟨htargets'', trans_of R hfirst hsecond⟩

namespace Covers

lemma of_eq (h : Covers targets R) {r r' : Registrar} (hproject : r'.project = r.project)
    (htargets : r'.targets = r.targets) : Grows targets R r r' := by
  intro hr
  rw [hproject]
  exact ⟨htargets.trans hr, h.refl r.project⟩

lemma childIndex (h : Covers targets R) (r : Registrar) (group : ObjectId) :
    Grows targets R r (r.childIndex group).state := by
  unfold Registrar.childIndex
  split
  · exact h.of_eq rfl rfl
  · split <;> exact h.of_eq rfl rfl

lemma createGroup (h : Covers targets R) (r : Registrar) (parent : ObjectId)
    (index : ChildIndex) (directory : String) :
    Grows targets R r (r.createGroup parent index directory).state := by
  intro htargets
  have hedit := h.newGroup r.project parent directory
  unfold Registrar.createGroup
  generalize r.project.newGroup parent directory directory = attempt at hedit ⊢
  obtain ⟨result, p⟩ := attempt
  cases result <;> exact ⟨htargets, hedit⟩

lemma createFile (h : Covers targets R) (r : Registrar) (parent : ObjectId)
    (index : ChildIndex) (fileName : String) :
    Grows targets R r (r.createFile parent index fileName).state := by
  intro htargets
  have hedit := h.newFile r.project parent fileName
  unfold Registrar.createFile
  generalize r.project.newFile parent fileName = attempt at hedit ⊢
  obtain ⟨result, p⟩ := attempt
  cases result <;> exact ⟨htargets, hedit⟩

variable [IsTrans Project R]

lemma descend (h : Covers targets R) (group : ObjectId)
    (walked created directories : List String) (r : Registrar) :
    Grows targets R r (Registrar.descend group walked created directories r).state := by
  induction directories generalizing group walked created r with
  | nil => exact h.of_eq rfl rfl
  | cons directory rest ih =>
    rw [Registrar.descend]
    refine Attempt.state_andThen (Grows targets R) (h.childIndex r group) ?_
    intro index r _
    simp only
    split
    · exact ih _ _ _ r
    · exact h.of_eq rfl rfl
    · exact Attempt.state_andThen (Grows targets R) (h.createGroup r group index directory)
        fun next r _ => ih next _ _ r

lemma attachAll (h : Covers targets R) (file : ObjectId) (fileName : String)
    {some : List Target} (hsub : ∀ target ∈ some, target ∈ targets) (r : Registrar) :
    Grows targets R r (Registrar.attachAll file fileName some r).state := by
  induction some generalizing r with
  | nil => exact h.of_eq rfl rfl
  | cons target rest ih =>
    obtain ⟨hmem, hsub⟩ := List.forall_mem_cons.mp hsub
    have hedit := h.attach r.project target hmem file
    rw [Registrar.attachAll]
    generalize r.project.attach target file = attempt at hedit ⊢
    obtain ⟨result, p⟩ := attempt
    cases result with
    | error e => exact fun htargets => ⟨htargets, hedit⟩
    | ok attachment =>
      have hstep : Grows targets R r
          ({ r with project := p }.record (attachmentEvents target fileName attachment)) :=
        fun htargets => ⟨htargets, hedit⟩
      refine trans_of (Grows targets R) hstep
        (Attempt.state_andThen (Grows targets R) (ih hsub _) ?_)
      intro names r _
      exact h.of_eq rfl rfl

lemma registerFile (h : Covers targets R) (r : Registrar) (path : String) (group : ObjectId)
    (fileName : String) (created : List String) :
    Grows targets R r (r.registerFile path group fileName created).state := by
  unfold Registrar.registerFile
  refine Attempt.state_andThen (Grows targets R) (h.childIndex r group) ?_
  intro index r _
  split
  · exact h.of_eq rfl rfl
  · refine Attempt.state_andThen (Grows targets R) (h.createFile r group index fileName) ?_
    intro file r _
    refine Attempt.state_andThen (Grows targets R) ?_ fun names r _ => h.of_eq rfl rfl
    intro htargets
    exact h.attachAll file fileName (fun target hmem => htargets ▸ hmem) r htargets

theorem register (h : Covers targets R) (r : Registrar) (path : String) :
    Grows targets R r (r.register path).state := by
  unfold Registrar.register
  split
  · exact h.of_eq rfl rfl
  · next parts hsplit =>
    refine Attempt.state_andThen (Grows targets R) (h.descend _ [] [] parts.directories r) ?_
    rintro ⟨way, created⟩ r _
    simp only
    split
    · exact h.of_eq rfl rfl
    · exact h.registerFile r path _ parts.fileName created

lemma registerAll (h : Covers targets R) (paths : List String) (r : Registrar) :
    Grows targets R r (Registrar.registerAll paths r).state := by
  induction paths generalizing r with
  | nil => exact h.of_eq rfl rfl
  | cons path rest ih =>
    rw [Registrar.registerAll]
    refine Attempt.state_andThen (Grows targets R) (h.register r path) ?_
    intro registration r _
    refine Attempt.state_andThen (Grows targets R) (ih r) ?_
    intro registrations r _
    exact h.of_eq rfl rfl

lemma registerEach (h : Covers targets R) (paths : List String) (r : Registrar) :
    Grows targets R r (Registrar.registerEach paths r).2 := by
  induction paths generalizing r with
  | nil => exact h.of_eq rfl rfl
  | cons path rest ih => exact trans_of (Grows targets R) (h.register r path) (ih _)

end Covers

end Covers

/-! ### It adds to its project -/

/-- The project is added to, if the targets that take files are native targets in it. -/
def AddsFor (targets : List Target) (p p' : Project) : Prop :=
  NativeIn p targets → Additions IsRegisteredList p p'

instance (targets : List Target) : IsTrans Project (AddsFor targets) := by
  refine ⟨fun p p' p'' h h' hnative => ?_⟩
  have hadditions := h hnative
  exact hadditions.trans (h' (hnative.additions hadditions))

lemma covers_addsFor (targets : List Target) : Covers targets (AddsFor targets) where
  refl p _ := .refl p
  newGroup p parent directory _ :=
    additions_addChild (fun _ => isRegisteredList_children) p parent _ _
      (.group directory directory)
  newFile p parent fileName _ :=
    additions_addChild (fun _ => isRegisteredList_children) p parent _ _ (.file fileName)
  attach := by
    intro p target hmem file hnative
    refine additions_attach ?_ isRegisteredList_files file
    intro haccepts object hobject
    obtain ⟨found, hfound, hkind⟩ := object?_of_kind? (hnative target hmem haccepts)
    obtain rfl := Option.some.inj (hobject.symm.trans hfound)
    rw [hkind]
    exact List.mem_append_right _ List.mem_cons_self

end Registrar

namespace Project

/-- Registering paths adds to the project, whether it is refused at some path or not. -/
theorem additions_register (p : Project) (paths : List String) :
    Additions IsRegisteredList p (p.register paths).state :=
  ((Registrar.covers_addsFor p.targets).registerAll paths (.ofProject p) rfl).2
    (Registrar.nativeIn_targets p)

/-- A registrar that goes on after a path was refused adds to the project, too. -/
theorem additions_registerEach (p : Project) (paths : List String) :
    Additions IsRegisteredList p (Registrar.registerEach paths (.ofProject p)).2.project :=
  ((Registrar.covers_addsFor p.targets).registerEach paths (.ofProject p) rfl).2
    (Registrar.nativeIn_targets p)

lemma edits_register (p : Project) (paths : List String) :
    Edits listFields p (p.register paths).state :=
  (additions_register p paths).edits fun _ _ => IsRegisteredList.mem_listFields

end Project

end XcodeProject
