import Mathlib
import XcodeProject.Proofs.Registration.Uncached

/-!
# The group tree follows the paths

After paths have been registered, each of them can be followed in the group tree: going down from
the main group, always to the first group with the path of the next directory, one comes to a group
with the file reference, or to a synchronized folder (`Follows`).

This is about the project at the end of the run, while a path is registered somewhere in the middle
of it.  What carries it over is that the tree only grows in one way (`TreeGrows`): a node goes to
the end of the children of a group, and only where there was no node of its sort with its path.  So
the first child with a path stays the first, and an only child stays the only one.
-/

namespace XcodeProject.Project

open Registrar (Way)

/-! ## Lists of children -/

/-- How many nodes are of a sort and have a path. -/
def countNodes (kind : NodeKind) (path : String) (nodes : List Node) : Nat :=
  nodes.countP fun node => node.Matches kind path

section Lists

variable {kind : NodeKind} {path : String} {nodes : List Node}

lemma firstNode?_eq_none : firstNode? kind path nodes = none ↔ countNodes kind path nodes = 0 := by
  unfold firstNode? countNodes
  rw [Option.map_eq_none_iff, List.find?_eq_none, List.countP_eq_zero]

lemma countNodes_append_singleton (node : Node) : countNodes kind path (nodes ++ [node]) =
    countNodes kind path nodes + if node.Matches kind path then 1 else 0 := by
  by_cases h : node.Matches kind path <;> simp [countNodes, h]

end Lists

/-- A node goes to the end of children among which there was none of its sort with its path.  A
group does not go where there is a synchronized folder with its path. -/
inductive AppendsNew (nodes : List Node) : List Node → Prop
  /-- The node is the first with its path. -/
  | mk {node : Node} {path : String} (hpath : node.path = some path)
      (hnone : firstNode? node.kind path nodes = none)
      (hfolder : node.kind = .group → firstNode? .synchronized path nodes = none) :
      AppendsNew nodes (nodes ++ [node])

namespace AppendsNew

variable {kind : NodeKind} {path : String} {nodes nodes' : List Node}

lemma firstNode?_eq (h : AppendsNew nodes nodes') {id : ObjectId}
    (hfirst : firstNode? kind path nodes = some id) : firstNode? kind path nodes' = some id := by
  cases h
  rw [firstNode?_append, hfirst, Option.some_or]

/-- No group gets in front of a synchronized folder. -/
lemma firstNode?_group (h : AppendsNew nodes nodes') {folder : ObjectId}
    (hgroup : firstNode? .group path nodes = none)
    (hfolder : firstNode? .synchronized path nodes = some folder) :
    firstNode? .group path nodes' = none := by
  cases h with
  | @mk node location hpath hnone hnoFolder =>
    rw [firstNode?_append, hgroup, Option.none_or, firstNode?_singleton]
    split
    · next hmatches =>
      obtain ⟨hkind, hlocation⟩ := hmatches
      rw [hpath] at hlocation
      cases hlocation
      rw [hnoFolder hkind] at hfolder
      cases hfolder
    · rfl

lemma countNodes_eq (h : AppendsNew nodes nodes') (hone : countNodes kind path nodes = 1) :
    countNodes kind path nodes' = 1 := by
  cases h with
  | @mk node location hpath hnone hnoFolder =>
    have hnot : ¬ node.Matches kind path := by
      rintro ⟨hkind, hlocation⟩
      rw [hpath] at hlocation
      cases hlocation
      rw [hkind, firstNode?_eq_none, hone] at hnone
      cases hnone
    rw [countNodes_append_singleton, if_neg hnot, hone]

end AppendsNew

/-! ## Walks -/

/-- The first child of a group that is of a sort and has a path. -/
def firstChild? (p : Project) (kind : NodeKind) (path : String) (group : ObjectId) :
    Option ObjectId :=
  match p.children group with
  | .ok nodes => firstNode? kind path nodes
  | .error _ => none

/-- How many children of a group are of a sort and have a path. -/
def countChildren (p : Project) (kind : NodeKind) (path : String) (group : ObjectId) : Nat :=
  match p.children group with
  | .ok nodes => countNodes kind path nodes
  | .error _ => 0

/-- Where a walk ends. -/
inductive Halt where
  /-- The walk goes all the way, to a group. -/
  | atGroup (group : ObjectId)
  /-- The walk comes to a group that has no group for the next directory. -/
  | blocked (group : ObjectId) (directory : String)
deriving DecidableEq, Repr

/-- Goes down from a group along directories, always to the first group with the next path. -/
def walk (p : Project) : ObjectId → List String → Halt
  | group, [] => .atGroup group
  | group, directory :: rest =>
    match p.firstChild? .group directory group with
    | some next => p.walk next rest
    | none => .blocked group directory

section Walk

variable {p : Project} {kind : NodeKind} {path : String} {group : ObjectId}

lemma firstChild?_of_children {nodes : List Node} (h : p.children group = .ok nodes) :
    p.firstChild? kind path group = firstNode? kind path nodes := by
  rw [firstChild?, h]

lemma countChildren_of_children {nodes : List Node} (h : p.children group = .ok nodes) :
    p.countChildren kind path group = countNodes kind path nodes := by
  rw [countChildren, h]

lemma firstChild?_eq_some {id : ObjectId} : p.firstChild? kind path group = some id ↔
    ∃ nodes, p.children group = .ok nodes ∧ firstNode? kind path nodes = some id := by
  unfold firstChild?
  cases p.children group <;> simp

lemma walk_cons {next : ObjectId} {directory : String}
    (h : p.firstChild? .group directory group = some next) (rest : List String) :
    p.walk group (directory :: rest) = p.walk next rest := by
  rw [walk, h]

lemma walk_cons_of_none {directory : String} (h : p.firstChild? .group directory group = none)
    (rest : List String) : p.walk group (directory :: rest) = .blocked group directory := by
  rw [walk, h]

end Walk

/-! ## Growing trees -/

/-- The children of every group have grown by nodes with paths that were new there. -/
structure TreeGrows (p p' : Project) : Prop where
  /-- The tree hangs from the same group. -/
  mainGroup_eq : p'.mainGroup = p.mainGroup
  /-- The children have grown. -/
  children : ∀ id nodes, p.children id = .ok nodes →
    ∃ nodes', p'.children id = .ok nodes' ∧ Relation.ReflTransGen AppendsNew nodes nodes'

lemma TreeKept.treeGrows {p p' : Project} (h : TreeKept p p') : TreeGrows p p' := by
  refine ⟨h.mainGroup_eq, ?_⟩
  intro id nodes hchildren
  exact ⟨nodes, h.children_eq id nodes hchildren, .refl⟩

lemma ChildAdded.treeGrows {p p' : Project} {parent : ObjectId} {node : Node}
    (h : ChildAdded p parent node p') {nodes : List Node}
    (hchildren : p.children parent = .ok nodes) (hnew : AppendsNew nodes (nodes ++ [node])) :
    TreeGrows p p' := by
  refine ⟨h.mainGroup_eq, ?_⟩
  intro id others hothers
  by_cases hid : id = parent
  · subst hid
    rw [hchildren] at hothers
    cases hothers
    exact ⟨_, h.children_parent nodes hchildren, .single hnew⟩
  · exact ⟨others, h.children_other id others hid hothers, .refl⟩

namespace TreeGrows

variable {p p' p'' : Project}

lemma refl (p : Project) : TreeGrows p p :=
  ⟨rfl, fun _ nodes h => ⟨nodes, h, .refl⟩⟩

lemma trans (h : TreeGrows p p') (h' : TreeGrows p' p'') : TreeGrows p p'' := by
  refine ⟨h'.mainGroup_eq.trans h.mainGroup_eq, ?_⟩
  intro id nodes hchildren
  obtain ⟨nodes', hchildren', hgrown⟩ := h.children id nodes hchildren
  obtain ⟨nodes'', hchildren'', hgrown'⟩ := h'.children id nodes' hchildren'
  exact ⟨nodes'', hchildren'', hgrown.trans hgrown'⟩

/-- What a new node does not change about the children of a group stays true of them. -/
lemma exists_children {P : List Node → Prop}
    (hstep : ∀ nodes nodes', AppendsNew nodes nodes' → P nodes → P nodes') (h : TreeGrows p p')
    {id : ObjectId} {nodes : List Node} (hchildren : p.children id = .ok nodes) (hP : P nodes) :
    ∃ nodes', p'.children id = .ok nodes' ∧ P nodes' := by
  obtain ⟨nodes', hchildren', hgrown⟩ := h.children id nodes hchildren
  refine ⟨nodes', hchildren', ?_⟩
  clear hchildren'
  induction hgrown with
  | refl => exact hP
  | tail _ hnew ih => exact hstep _ _ hnew ih

lemma firstChild?_eq (h : TreeGrows p p') {kind : NodeKind} {path : String} {group id : ObjectId}
    (hfirst : p.firstChild? kind path group = some id) :
    p'.firstChild? kind path group = some id := by
  obtain ⟨nodes, hchildren, hnode⟩ := firstChild?_eq_some.mp hfirst
  exact firstChild?_eq_some.mpr
    (h.exists_children (fun _ _ hnew => hnew.firstNode?_eq) hchildren hnode)

lemma firstChild?_group (h : TreeGrows p p') {path : String} {group folder : ObjectId}
    (hgroup : p.firstChild? .group path group = none)
    (hfolder : p.firstChild? .synchronized path group = some folder) :
    p'.firstChild? .group path group = none := by
  obtain ⟨nodes, hchildren, hnode⟩ := firstChild?_eq_some.mp hfolder
  rw [firstChild?_of_children hchildren] at hgroup
  obtain ⟨nodes', hchildren', hgroup', -⟩ := h.exists_children
    (P := fun nodes => firstNode? .group path nodes = none ∧
      firstNode? .synchronized path nodes = some folder)
    (fun _ _ hnew hboth =>
      ⟨hnew.firstNode?_group hboth.1 hboth.2, hnew.firstNode?_eq hboth.2⟩)
    hchildren ⟨hgroup, hnode⟩
  rw [firstChild?_of_children hchildren', hgroup']

lemma countChildren_eq (h : TreeGrows p p') {kind : NodeKind} {path : String} {group : ObjectId}
    (hone : p.countChildren kind path group = 1) : p'.countChildren kind path group = 1 := by
  cases hchildren : p.children group with
  | error e =>
    rw [countChildren, hchildren] at hone
    cases hone
  | ok nodes =>
    rw [countChildren_of_children hchildren] at hone
    obtain ⟨nodes', hchildren', hone'⟩ :=
      h.exists_children (fun _ _ hnew => hnew.countNodes_eq) hchildren hone
    rw [countChildren_of_children hchildren', hone']

lemma walk_atGroup (h : TreeGrows p p') {group stop : ObjectId} {directories : List String}
    (hwalk : p.walk group directories = .atGroup stop) :
    p'.walk group directories = .atGroup stop := by
  induction directories generalizing group with
  | nil => exact hwalk
  | cons directory rest ih =>
    cases hfirst : p.firstChild? .group directory group with
    | none =>
      rw [walk_cons_of_none hfirst] at hwalk
      cases hwalk
    | some next =>
      rw [walk_cons hfirst] at hwalk
      rw [walk_cons (h.firstChild?_eq hfirst)]
      exact ih hwalk

lemma walk_blocked (h : TreeGrows p p') {group stop folder : ObjectId} {directory : String}
    {directories : List String} (hwalk : p.walk group directories = .blocked stop directory)
    (hfolder : p.firstChild? .synchronized directory stop = some folder) :
    p'.walk group directories = .blocked stop directory := by
  induction directories generalizing group with
  | nil => cases hwalk
  | cons next rest ih =>
    cases hfirst : p.firstChild? .group next group with
    | none =>
      rw [walk_cons_of_none hfirst] at hwalk
      cases hwalk
      exact walk_cons_of_none (h.firstChild?_group hfirst hfolder) rest
    | some child =>
      rw [walk_cons hfirst] at hwalk
      rw [walk_cons (h.firstChild?_eq hfirst)]
      exact ih hwalk

end TreeGrows

/-! ## The way down -/

/-- The directories lead from a group the way that registration took. -/
def Leads (p : Project) (group : ObjectId) (directories : List String) : Way → Prop
  | .toGroup stop => p.walk group directories = .atGroup stop
  | .intoFolder folder => ∃ stop directory, p.walk group directories = .blocked stop directory ∧
      p.firstChild? .synchronized directory stop = some folder

/-- The name is that of a group on the way, which is the only one with its path in its parent.
`walked` are the directories above `group`. -/
def IsSoleGroup (p : Project) (group : ObjectId) (walked directories : List String)
    (name : String) : Prop :=
  ∃ before directory after parent, directories = before ++ directory :: after ∧
    name = Path.join (walked ++ before ++ [directory]) ∧
    p.walk group before = .atGroup parent ∧ p.countChildren .group directory parent = 1

section Cons

variable {p : Project} {group next : ObjectId} {directory : String} {rest : List String}

lemma leads_cons (hfirst : p.firstChild? .group directory group = some next) {way : Way} :
    p.Leads group (directory :: rest) way ↔ p.Leads next rest way := by
  cases way <;> simp only [Leads, walk_cons hfirst]

lemma IsSoleGroup.cons (hfirst : p.firstChild? .group directory group = some next)
    {walked : List String} {name : String}
    (h : p.IsSoleGroup next (walked ++ [directory]) rest name) :
    p.IsSoleGroup group walked (directory :: rest) name := by
  obtain ⟨before, last, after, parent, rfl, rfl, hwalk, hone⟩ := h
  refine ⟨directory :: before, last, after, parent, rfl, ?_, ?_, hone⟩
  · rw [List.append_assoc walked, List.singleton_append]
  · exact (walk_cons hfirst before).trans hwalk

end Cons

/-- What following directories down comes to, when `made` are the names of the groups made. -/
structure Descended (p : Project) (group : ObjectId) (walked directories : List String)
    (way : Way) (made : List String) (p' : Project) : Prop where
  /-- The ids that groups list are in the table. -/
  listed : p'.ChildrenListed
  /-- The tree has grown. -/
  grows : TreeGrows p p'
  /-- The directories lead where registration went. -/
  leads : p'.Leads group directories way
  /-- The groups made are the only ones with their paths. -/
  sole : ∀ name ∈ made, p'.IsSoleGroup group walked directories name

lemma childAdded_new {p p' : Project} {parent : ObjectId} {node : Node} {nodes : List Node}
    {path : String} (hadded : ChildAdded p parent node p')
    (hchildren : p.children parent = .ok nodes) (hpath : node.path = some path)
    (hnone : firstNode? node.kind path nodes = none) :
    p'.firstChild? node.kind path parent = some node.id ∧
      p'.countChildren node.kind path parent = 1 := by
  have hmatches : node.Matches node.kind path := ⟨rfl, hpath⟩
  have hchildren' := hadded.children_parent nodes hchildren
  rw [firstChild?_of_children hchildren', countChildren_of_children hchildren',
    firstNode?_append, hnone, Option.none_or, firstNode?_singleton, if_pos hmatches,
    countNodes_append_singleton, firstNode?_eq_none.mp hnone, if_pos hmatches]
  exact ⟨rfl, rfl⟩

theorem descended_of_descend {p p' : Project} (hp : p.ChildrenListed) {group : ObjectId}
    {walked created directories all : List String} {way : Way}
    (h : descend group walked created directories p = ⟨.ok (way, all), p'⟩) :
    ∃ made, all = created ++ made ∧ Descended p group walked directories way made p' := by
  induction directories generalizing p group walked created with
  | nil =>
    cases h
    exact ⟨[], (List.append_nil _).symm, hp, .refl _, rfl, by simp⟩
  | cons directory rest ih =>
    rw [descend] at h
    split at h
    · cases h
    next nodes hchildren =>
    simp only at h
    split at h
    · -- The group is there already.
      next next hnext =>
      obtain ⟨made, hall, hdown⟩ := ih hp h
      have hfirst : p.firstChild? .group directory group = some next :=
        (firstChild?_of_children hchildren).trans hnext
      have hfirst' := hdown.grows.firstChild?_eq hfirst
      refine ⟨made, hall, hdown.listed, hdown.grows, (leads_cons hfirst').mpr hdown.leads, ?_⟩
      intro name hname
      exact (hdown.sole name hname).cons hfirst'
    · -- A synchronized folder is in the way.
      next folder hgroup hfolder =>
      have hblocked : p.walk group (directory :: rest) = .blocked group directory :=
        walk_cons_of_none ((firstChild?_of_children hchildren).trans hgroup) rest
      have hinto : p.firstChild? .synchronized directory group = some folder :=
        (firstChild?_of_children hchildren).trans hfolder
      cases h
      exact ⟨[], (List.append_nil _).symm, hp, .refl _, ⟨group, directory, hblocked, hinto⟩,
        by simp⟩
    · -- The group has to be made.
      next hgroup hfolder =>
      obtain ⟨next, middle, hattempt, hrest⟩ := Attempt.andThen_eq_ok h
      have hadded := childAdded_of_newGroup hp hattempt
      have hgrows := hadded.treeGrows hchildren (.mk rfl hgroup fun _ => hfolder)
      obtain ⟨hfirst, hone⟩ := childAdded_new hadded hchildren rfl hgroup
      obtain ⟨made, hall, hdown⟩ := ih hadded.listed hrest
      have hfirst' := hdown.grows.firstChild?_eq hfirst
      refine ⟨Path.join (walked ++ [directory]) :: made, ?_, hdown.listed,
        hgrows.trans hdown.grows, (leads_cons hfirst').mpr hdown.leads, ?_⟩
      · rw [hall, List.append_assoc, List.singleton_append]
      · intro name hname
        rcases List.mem_cons.mp hname with rfl | hname
        · refine ⟨[], directory, rest, group, rfl, ?_, rfl, hdown.grows.countChildren_eq hone⟩
          rw [List.append_nil]
        · exact (hdown.sole name hname).cons hfirst'

/-! ## Files -/

lemma treeKept_attachAll {p : Project} (hp : p.ChildrenListed) (file : ObjectId)
    (targets : List Target) : TreeKept p (attachAll file targets p).state := by
  induction targets generalizing p with
  | nil => exact .refl hp
  | cons target rest ih =>
    have hkept := treeKept_attach hp target file
    rw [attachAll]
    generalize p.attach target file = attempt at hkept ⊢
    obtain ⟨result, q⟩ := attempt
    cases result with
    | error e => exact hkept
    | ok attachment =>
      have hrest := ih hkept.listed
      rw [Attempt.andThen_ok]
      generalize attachAll file rest q = attempt at hrest ⊢
      obtain ⟨result, q'⟩ := attempt
      cases result <;> exact hkept.trans hrest

/-- What registering a file name in a group comes to. -/
structure FileRegistered (p : Project) (group : ObjectId) (fileName : String)
    (registration : Registration) (p' : Project) : Prop where
  /-- The ids that groups list are in the table. -/
  listed : p'.ChildrenListed
  /-- The tree has grown. -/
  grows : TreeGrows p p'
  /-- The group has the file reference. -/
  found : ∃ file, p'.firstChild? .file fileName group = some file ∧ registration.file = some file
  /-- A new file reference is the only one with its path. -/
  sole : registration.outcome = .created → p'.countChildren .file fileName group = 1

theorem fileRegistered_of_registerFile {p p' : Project} (hp : p.ChildrenListed)
    {path fileName : String} {group : ObjectId} {created : List String}
    {registration : Registration}
    (h : p.registerFile path group fileName created = ⟨.ok registration, p'⟩) :
    FileRegistered p group fileName registration p' ∧ registration.groupsCreated = created := by
  unfold registerFile at h
  split at h
  · cases h
  next nodes hchildren =>
  split at h
  · next file hfile =>
    have hfound : p.firstChild? .file fileName group = some file :=
      (firstChild?_of_children hchildren).trans hfile
    cases h
    exact ⟨⟨hp, .refl _, ⟨file, hfound, rfl⟩, nofun⟩, rfl⟩
  · next hnone =>
    obtain ⟨file, middle, hattempt, hrest⟩ := Attempt.andThen_eq_ok h
    obtain ⟨names, last, hattach, hlast⟩ := Attempt.andThen_eq_ok hrest
    have hadded := childAdded_of_newFile hp hattempt
    have hgrows := hadded.treeGrows hchildren (.mk rfl hnone nofun)
    obtain ⟨hfirst, hone⟩ := childAdded_new hadded hchildren rfl hnone
    have hkept := treeKept_attachAll hadded.listed file middle.targets
    rw [hattach] at hkept
    have hgrows' := hkept.treeGrows
    cases hlast
    exact ⟨⟨hkept.listed, hgrows.trans hgrows', ⟨file, hgrows'.firstChild?_eq hfirst, rfl⟩,
      fun _ => hgrows'.countChildren_eq hone⟩, rfl⟩

/-! ## Paths -/

/-- The group tree has the path, in the way that a registration says. -/
structure Follows (p : Project) (parts : Path.Parts) (registration : Registration) : Prop where
  /-- The directories lead to a group that has the file reference, or to a group where only a
  synchronized folder goes on. -/
  reached :
    (∃ group file, p.walk p.mainGroup parts.directories = .atGroup group ∧
      p.firstChild? .file parts.fileName group = some file ∧ registration.file = some file ∧
      (registration.outcome = .created → p.countChildren .file parts.fileName group = 1)) ∨
    ∃ group directory folder, p.walk p.mainGroup parts.directories = .blocked group directory ∧
      p.firstChild? .synchronized directory group = some folder ∧
      registration.outcome = .existing ∧ registration.file = none
  /-- A group that was made for the path is the only one with its path in its parent. -/
  sole : ∀ name ∈ registration.groupsCreated,
    p.IsSoleGroup p.mainGroup [] parts.directories name

/-- The path has no file name, and its registration says so, or the group tree has the path. -/
def Settled (p : Project) (path : String) (registration : Registration) : Prop :=
  match Path.split path with
  | none => registration.outcome = .skipped ∧ registration.file = none
  | some parts => p.Follows parts registration

section Grown

variable {p p' : Project}

lemma IsSoleGroup.grown (hgrows : TreeGrows p p') {group : ObjectId}
    {walked directories : List String} {name : String}
    (h : p.IsSoleGroup group walked directories name) :
    p'.IsSoleGroup group walked directories name := by
  obtain ⟨before, directory, after, parent, hsplit, hname, hwalk, hone⟩ := h
  exact ⟨before, directory, after, parent, hsplit, hname, hgrows.walk_atGroup hwalk,
    hgrows.countChildren_eq hone⟩

lemma Follows.grown (hgrows : TreeGrows p p') {parts : Path.Parts} {registration : Registration}
    (h : p.Follows parts registration) : p'.Follows parts registration := by
  refine ⟨?_, ?_⟩
  · rw [hgrows.mainGroup_eq]
    rcases h.reached with ⟨group, file, hwalk, hfirst, hfile, hone⟩ |
      ⟨group, directory, folder, hwalk, hfolder, houtcome, hfile⟩
    · exact .inl ⟨group, file, hgrows.walk_atGroup hwalk, hgrows.firstChild?_eq hfirst, hfile,
        fun hcreated => hgrows.countChildren_eq (hone hcreated)⟩
    · exact .inr ⟨group, directory, folder, hgrows.walk_blocked hwalk hfolder,
        hgrows.firstChild?_eq hfolder, houtcome, hfile⟩
  · intro name hname
    rw [hgrows.mainGroup_eq]
    exact (h.sole name hname).grown hgrows

lemma Settled.grown (hgrows : TreeGrows p p') {path : String} {registration : Registration}
    (h : p.Settled path registration) : p'.Settled path registration := by
  unfold Settled at h ⊢
  split at h
  · exact h
  · exact h.grown hgrows

end Grown

/-- What one path does. -/
theorem settled_of_registerPath {p p' : Project} (hp : p.ChildrenListed) {path : String}
    {registration : Registration} (h : p.registerPath path = ⟨.ok registration, p'⟩) :
    p'.ChildrenListed ∧ TreeGrows p p' ∧ p'.Settled path registration := by
  unfold registerPath at h
  unfold Settled
  cases hsplit : Path.split path with
  | none =>
    rw [hsplit] at h
    cases h
    exact ⟨hp, .refl _, rfl, rfl⟩
  | some parts =>
    rw [hsplit] at h
    obtain ⟨⟨way, created⟩, middle, hdescend, hrest⟩ := Attempt.andThen_eq_ok h
    obtain ⟨made, hmade, hdown⟩ := descended_of_descend hp hdescend
    rw [List.nil_append] at hmade
    subst hmade
    cases way with
    | intoFolder folder =>
      obtain ⟨group, directory, hwalk, hfolder⟩ := hdown.leads
      have hmain := hdown.grows.mainGroup_eq
      cases hrest
      refine ⟨hdown.listed, hdown.grows, ?_, ?_⟩
      · rw [hmain]
        exact .inr ⟨group, directory, folder, hwalk, hfolder, rfl, rfl⟩
      · rw [hmain]
        exact hdown.sole
    | toGroup group =>
      obtain ⟨hfile, hcreated⟩ := fileRegistered_of_registerFile hdown.listed hrest
      have hgrows := hdown.grows.trans hfile.grows
      obtain ⟨file, hfirst, hfileEq⟩ := hfile.found
      refine ⟨hfile.listed, hgrows, ?_, ?_⟩
      · rw [hgrows.mainGroup_eq]
        exact .inl ⟨group, file, hfile.grows.walk_atGroup hdown.leads, hfirst, hfileEq, hfile.sole⟩
      · rw [hgrows.mainGroup_eq, hcreated]
        intro name hname
        exact (hdown.sole name hname).grown hfile.grows

/-- What a run does: every path is settled at its end. -/
theorem settled_of_registerPaths {p p' : Project} (hp : p.ChildrenListed) {paths : List String}
    {registrations : List Registration} (h : registerPaths paths p = ⟨.ok registrations, p'⟩) :
    TreeGrows p p' ∧ List.Forall₂ p'.Settled paths registrations := by
  induction paths generalizing p registrations with
  | nil =>
    cases h
    exact ⟨.refl _, .nil⟩
  | cons path rest ih =>
    rw [registerPaths] at h
    obtain ⟨registration, middle, hfirst, hrest⟩ := Attempt.andThen_eq_ok h
    obtain ⟨others, last, hothers, hlast⟩ := Attempt.andThen_eq_ok hrest
    cases hlast
    obtain ⟨hlisted, hgrows, hsettled⟩ := settled_of_registerPath hp hfirst
    obtain ⟨hgrows', hsettled'⟩ := ih hlisted hothers
    exact ⟨hgrows.trans hgrows', .cons (hsettled.grown hgrows') hsettled'⟩

lemma settled_of_register {p : Project} (hp : p.ChildrenListed) {paths : List String}
    {report : Report} (h : (p.register paths).result = .ok report) :
    List.Forall₂ (p.register paths).state.Settled paths report.paths := by
  rw [register_eq hp] at h ⊢
  generalize hrun : registerPaths paths p = run at h ⊢
  obtain ⟨result, p'⟩ := run
  cases result with
  | error e => cases h
  | ok registrations =>
    cases h
    exact (settled_of_registerPaths hp hrun).2

/-- When paths have been registered, the group tree has every one of them that has a file name. -/
theorem tree_follows_registered_paths {p : Project} (hp : p.ChildrenListed) {paths : List String}
    {report : Report} (h : (p.register paths).result = .ok report) :
    List.Forall₂ (fun path registration => ∀ parts, Path.split path = some parts →
      (p.register paths).state.Follows parts registration) paths report.paths := by
  refine (settled_of_register hp h).imp ?_
  intro path registration hsettled parts hsplit
  rw [Settled, hsplit] at hsettled
  exact hsettled

lemma exists_report_sample :
    ∃ report, (sampleProject.register samplePaths).result = .ok report := by
  have hok : (sampleProject.register samplePaths).result.isOk = true := by decide +kernel
  cases hresult : (sampleProject.register samplePaths).result with
  | error e =>
    rw [hresult] at hok
    cases hok
  | ok report => exact ⟨report, rfl⟩

theorem tree_follows_registered_paths_sample :
    sampleProject.ChildrenListed ∧ ∃ report,
      (sampleProject.register samplePaths).result = .ok report ∧
        List.Forall₂ (fun path registration => ∀ parts, Path.split path = some parts →
          (sampleProject.register samplePaths).state.Follows parts registration)
          samplePaths report.paths := by
  have hlisted := childrenListed_sampleProject
  obtain ⟨report, hreport⟩ := exists_report_sample
  exact ⟨hlisted, report, hreport, tree_follows_registered_paths hlisted hreport⟩

end XcodeProject.Project
