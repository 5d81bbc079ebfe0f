import Mathlib
import XcodeProject.Proofs.Project.GroupTree

/-!
# What a registrar remembers is what the project has

A registrar remembers the children of the groups it has looked into and the targets there were when
it was made.  This module has registration without any memory (`Project.registerPath`): it goes
through the children of a group each time.  A registrar is `Coherent` if what it remembers is what
its project has.  From a coherent registrar, registering a path comes to the same, leaves the same
project, and leaves the registrar coherent, whether the path is refused or not (`Refines`).

So it makes no difference whether many paths go through one registrar or each through one of its own
(`one_registrar_as_good_as_many`).
-/

namespace XcodeProject

open Project (Node NodeKind)
open Registrar (Way)

/-! ## The first child with a path -/

namespace Project

/-- The node is of a sort and has a path. -/
def Node.Matches (kind : NodeKind) (path : String) (node : Node) : Prop :=
  node.kind = kind ∧ node.path = some path

instance (kind : NodeKind) (path : String) : DecidablePred (Node.Matches kind path) :=
  fun node => inferInstanceAs (Decidable (node.kind = kind ∧ node.path = some path))

/-- The first of some nodes that is of a sort and has a path. -/
def firstNode? (kind : NodeKind) (path : String) (nodes : List Node) : Option ObjectId :=
  (nodes.find? fun node => node.Matches kind path).map Node.id

section FirstNode

variable {kind : NodeKind} {path : String}

lemma firstNode?_append (nodes more : List Node) : firstNode? kind path (nodes ++ more) =
    (firstNode? kind path nodes).or (firstNode? kind path more) := by
  rw [firstNode?, List.find?_append, Option.map_or]
  rfl

lemma firstNode?_singleton (node : Node) : firstNode? kind path [node] =
    if node.Matches kind path then some node.id else none := by
  by_cases h : node.Matches kind path <;> simp [firstNode?, h]

end FirstNode

end Project

namespace ChildIndex

open Project (firstNode? firstNode?_append firstNode?_singleton)

/-- The children of a sort by path. -/
def ofSort (index : ChildIndex) : NodeKind → Dict ObjectId
  | .group => index.groups
  | .file => index.files
  | .synchronized => index.synchronized
  | .other => []

lemma lookup_addFirst (index : Dict ObjectId) (path other : String) (id : ObjectId) :
    (addFirst index path id).lookup other =
      (index.lookup other).or (if path = other then some id else none) := by
  unfold addFirst
  by_cases h : path = other
  · subst h
    cases hlookup : index.lookup path with
    | none => simp [Dict.contains, hlookup, Dict.lookup_insert]
    | some found => simp [Dict.contains, hlookup]
  · rw [if_neg h, Option.or_none]
    split
    · rfl
    · rw [Dict.lookup_insert, if_neg (Ne.symm h)]

lemma lookup_add (index : ChildIndex) (node : Node) {kind : NodeKind} (hkind : kind ≠ .other)
    (path : String) :
    ((index.add node).ofSort kind).lookup path =
      ((index.ofSort kind).lookup path).or (firstNode? kind path [node]) := by
  rw [firstNode?_singleton]
  obtain ⟨id, sort, name, location⟩ := node
  cases location with
  | none => simp [add, Node.Matches]
  | some location =>
    cases sort <;> cases kind <;> simp_all [add, ofSort, lookup_addFirst, Node.Matches]

lemma addFirst_of_lookup_none {index : Dict ObjectId} {path : String}
    (h : index.lookup path = none) (id : ObjectId) :
    addFirst index path id = Dict.insert index path id := by
  simp [addFirst, Dict.contains, h]

lemma ofNodes_append (nodes : List Node) (node : Node) :
    ofNodes (nodes ++ [node]) = (ofNodes nodes).add node := by
  simp [ofNodes]

/-- The index has the first child with a path. -/
theorem lookup_ofNodes (nodes : List Node) {kind : NodeKind} (hkind : kind ≠ .other)
    (path : String) : ((ofNodes nodes).ofSort kind).lookup path = firstNode? kind path nodes := by
  induction nodes using List.reverseRecOn with
  | nil => cases kind <;> rfl
  | append_singleton nodes node ih =>
    rw [ofNodes_append, lookup_add _ _ hkind, ih, firstNode?_append]

lemma lookup_groups (nodes : List Node) (path : String) :
    (ofNodes nodes).groups.lookup path = firstNode? .group path nodes :=
  lookup_ofNodes nodes (by decide : NodeKind.group ≠ .other) path

lemma lookup_files (nodes : List Node) (path : String) :
    (ofNodes nodes).files.lookup path = firstNode? .file path nodes :=
  lookup_ofNodes nodes (by decide : NodeKind.file ≠ .other) path

lemma lookup_synchronized (nodes : List Node) (path : String) :
    (ofNodes nodes).synchronized.lookup path = firstNode? .synchronized path nodes :=
  lookup_ofNodes nodes (by decide : NodeKind.synchronized ≠ .other) path

end ChildIndex

/-! ## Registration without memory -/

namespace Project

/-- Follows directories down from a group and makes the groups that are missing. -/
def descend (group : ObjectId) (walked created : List String) :
    List String → Project → Attempt Project (Way × List String)
  | [], p => ⟨.ok (.toGroup group, created), p⟩
  | directory :: rest, p =>
    match p.children group with
    | .error e => ⟨.error e, p⟩
    | .ok nodes =>
      let here := walked ++ [directory]
      match firstNode? .group directory nodes, firstNode? .synchronized directory nodes with
      | some next, _ => descend next here created rest p
      | none, some folder => ⟨.ok (.intoFolder folder, created), p⟩
      | none, none =>
        (p.newGroup group directory directory).andThen fun next p =>
          descend next here (created ++ [Path.join here]) rest p

/-- Attaches a file to targets; the result is the names of those that did not build it before. -/
def attachAll (file : ObjectId) : List Target → Project → Attempt Project (List String)
  | [], p => ⟨.ok [], p⟩
  | target :: rest, p =>
    (p.attach target file).andThen fun attachment p =>
      (attachAll file rest p).andThen fun names p =>
        ⟨.ok (if attachment.isNew then target.name :: names else names), p⟩

/-- Registers a file name in a group. -/
def registerFile (p : Project) (path : String) (group : ObjectId) (fileName : String)
    (created : List String) : Attempt Project Registration :=
  match p.children group with
  | .error e => ⟨.error e, p⟩
  | .ok nodes =>
    match firstNode? .file fileName nodes with
    | some file => ⟨.ok ⟨path, .existing, some file, created, []⟩, p⟩
    | none =>
      (p.newFile group fileName).andThen fun file p =>
        (attachAll file p.targets p).andThen fun names p =>
          ⟨.ok ⟨path, .created, some file, created, names⟩, p⟩

/-- Registers a path. -/
def registerPath (p : Project) (path : String) : Attempt Project Registration :=
  match Path.split path with
  | none => ⟨.ok ⟨path, .skipped, none, [], []⟩, p⟩
  | some parts =>
    (descend p.mainGroup [] [] parts.directories p).andThen fun (way, created) p =>
      match way with
      | .intoFolder _ => ⟨.ok ⟨path, .existing, none, created, []⟩, p⟩
      | .toGroup group => p.registerFile path group parts.fileName created

/-- Registers paths one after the other, and stops at the first that is refused. -/
def registerPaths : List String → Project → Attempt Project (List Registration)
  | [], p => ⟨.ok [], p⟩
  | path :: rest, p =>
    (p.registerPath path).andThen fun registration p =>
      (registerPaths rest p).andThen fun registrations p => ⟨.ok (registration :: registrations), p⟩

end Project

/-! ## Coherent registrars -/

namespace Registrar

open Project

/-- What the registrar remembers is what its project has. -/
structure Coherent (r : Registrar) : Prop where
  /-- The ids that groups list are in the table. -/
  listed : r.project.ChildrenListed
  /-- The targets are those of the project. -/
  targets_eq : r.targets = r.project.targets
  /-- The children of a group that was looked into are those it has. -/
  index_eq : ∀ group index, r.index.lookup group = some index →
    ∃ nodes, r.project.children group = .ok nodes ∧ index = ChildIndex.ofNodes nodes

lemma coherent_ofProject {p : Project} (hp : p.ChildrenListed) : (ofProject p).Coherent := by
  refine ⟨hp, rfl, ?_⟩
  intro group index hlookup
  cases hlookup

namespace Coherent

variable {r : Registrar}

lemma record (h : r.Coherent) (events : List Event) : (r.record events).Coherent :=
  ⟨h.listed, h.targets_eq, h.index_eq⟩

lemma insert (h : r.Coherent) {group : ObjectId} {nodes : List Node}
    (hchildren : r.project.children group = .ok nodes) :
    { r with index := Dict.insert r.index group (ChildIndex.ofNodes nodes) }.Coherent := by
  refine ⟨h.listed, h.targets_eq, ?_⟩
  intro other index hlookup
  rw [Dict.lookup_insert] at hlookup
  split at hlookup
  · next heq =>
    cases hlookup
    exact ⟨nodes, heq ▸ hchildren, rfl⟩
  · exact h.index_eq other index hlookup

/-- An edit that leaves the tree alone leaves the registrar coherent. -/
lemma keep (h : r.Coherent) {p : Project} (hkept : TreeKept r.project p) :
    { r with project := p }.Coherent := by
  refine ⟨hkept.listed, h.targets_eq.trans hkept.targets_eq.symm, ?_⟩
  intro group index hlookup
  obtain ⟨nodes, hchildren, hindex⟩ := h.index_eq group index hlookup
  exact ⟨nodes, hkept.children_eq group nodes hchildren, hindex⟩

/-- A registrar that adds a new child to what it remembers of the parent stays coherent. -/
lemma add (h : r.Coherent) {p : Project} {parent : ObjectId} {node : Node} {nodes : List Node}
    (hchildren : r.project.children parent = .ok nodes)
    (hadded : ChildAdded r.project parent node p) :
    { r with
      project := p
      index := Dict.insert r.index parent ((ChildIndex.ofNodes nodes).add node) }.Coherent := by
  refine ⟨hadded.listed, h.targets_eq.trans hadded.targets_eq.symm, ?_⟩
  intro group index hlookup
  rw [Dict.lookup_insert] at hlookup
  split at hlookup
  · next heq =>
    cases hlookup
    refine ⟨nodes ++ [node], ?_, (ChildIndex.ofNodes_append nodes node).symm⟩
    rw [heq]
    exact hadded.children_parent nodes hchildren
  · next hne =>
    obtain ⟨nodes, hnodes, hindex⟩ := h.index_eq group index hlookup
    exact ⟨nodes, hadded.children_other group nodes hne hnodes, hindex⟩

end Coherent

/-! ## Step by step -/

/-- What a registrar does comes to the same as what is done without it, and leaves it coherent. -/
structure Refines {α : Type} (attempt : Attempt Registrar α) (plain : Attempt Project α) :
    Prop where
  /-- The results are the same. -/
  result_eq : attempt.result = plain.result
  /-- The projects afterwards are the same. -/
  project_eq : attempt.state.project = plain.state
  /-- The registrar remembers what its project has. -/
  coherent : attempt.state.Coherent

lemma Refines.andThen {α β : Type} {attempt : Attempt Registrar α} {plain : Attempt Project α}
    (h : Refines attempt plain) {next : α → Registrar → Attempt Registrar β}
    {plainNext : α → Project → Attempt Project β}
    (hnext : ∀ made r, r.Coherent → Refines (next made r) (plainNext made r.project)) :
    Refines (attempt.andThen next) (plain.andThen plainNext) := by
  obtain ⟨result, r⟩ := attempt
  obtain ⟨plainResult, p⟩ := plain
  obtain ⟨hresult, hproject, hcoherent⟩ := h
  simp only at hresult hproject hcoherent
  subst hresult hproject
  cases result with
  | error e => exact ⟨rfl, rfl, hcoherent⟩
  | ok made => exact hnext made r hcoherent

/-- Looking into a group gives its children, remembered or not. -/
lemma Coherent.childIndex_cases {r : Registrar} (h : r.Coherent) (group : ObjectId) :
    (∃ e, r.project.children group = .error e ∧ r.childIndex group = ⟨.error e, r⟩) ∨
      ∃ nodes r', r.project.children group = .ok nodes ∧
        r.childIndex group = ⟨.ok (.ofNodes nodes), r'⟩ ∧ r'.project = r.project ∧
          r'.Coherent := by
  unfold childIndex
  split
  · next index hlookup =>
    obtain ⟨nodes, hchildren, rfl⟩ := h.index_eq group index hlookup
    exact .inr ⟨nodes, r, hchildren, rfl, rfl, h⟩
  · split
    · next e hchildren => exact .inl ⟨e, hchildren, rfl⟩
    · next nodes hchildren =>
      exact .inr ⟨nodes, _, hchildren, rfl, rfl, (h.insert hchildren).record _⟩

section Create

variable {r : Registrar} {parent : ObjectId} {nodes : List Node}

lemma refines_createGroup (h : r.Coherent) (hchildren : r.project.children parent = .ok nodes)
    {directory : String} (hnone : firstNode? .group directory nodes = none) :
    Refines (r.createGroup parent (.ofNodes nodes) directory)
      (r.project.newGroup parent directory directory) := by
  have hlookup : (ChildIndex.ofNodes nodes).groups.lookup directory = none :=
    (ChildIndex.lookup_groups nodes directory).trans hnone
  unfold createGroup
  split
  · next e p hattempt =>
    rw [hattempt]
    exact ⟨rfl, rfl, h.keep (treeKept_of_newGroup h.listed hattempt)⟩
  · next id p hattempt =>
    have hadded := childAdded_of_newGroup h.listed hattempt
    have hcoherent := (h.add hchildren hadded).insert (hadded.children_node rfl)
    simp only [ChildIndex.add, ChildIndex.addFirst_of_lookup_none hlookup] at hcoherent
    rw [hattempt]
    exact ⟨rfl, rfl, hcoherent.record _⟩

lemma refines_createFile (h : r.Coherent) (hchildren : r.project.children parent = .ok nodes)
    {fileName : String} (hnone : firstNode? .file fileName nodes = none) :
    Refines (r.createFile parent (.ofNodes nodes) fileName)
      (r.project.newFile parent fileName) := by
  have hlookup : (ChildIndex.ofNodes nodes).files.lookup fileName = none :=
    (ChildIndex.lookup_files nodes fileName).trans hnone
  unfold createFile
  split
  · next e p hattempt =>
    rw [hattempt]
    exact ⟨rfl, rfl, h.keep (treeKept_of_newFile h.listed hattempt)⟩
  · next id p hattempt =>
    have hadded := childAdded_of_newFile h.listed hattempt
    have hcoherent := h.add hchildren hadded
    simp only [ChildIndex.add, ChildIndex.addFirst_of_lookup_none hlookup] at hcoherent
    rw [hattempt]
    exact ⟨rfl, rfl, hcoherent.record _⟩

end Create

lemma refines_descend {r : Registrar} (h : r.Coherent) (group : ObjectId)
    (walked created directories : List String) :
    Refines (descend group walked created directories r)
      (Project.descend group walked created directories r.project) := by
  induction directories generalizing group walked created r with
  | nil => exact ⟨rfl, rfl, h⟩
  | cons directory rest ih =>
    rw [descend, Project.descend]
    rcases h.childIndex_cases group with ⟨e, hchildren, hindex⟩ |
      ⟨nodes, r', hchildren, hindex, hproject, hcoherent⟩
    · rw [hindex, hchildren]
      exact ⟨rfl, rfl, h⟩
    · rw [hindex, hchildren, Attempt.andThen_ok]
      rw [← hproject] at hchildren ⊢
      simp only [ChildIndex.lookup_groups, ChildIndex.lookup_synchronized]
      cases hgroup : firstNode? .group directory nodes with
      | some next => exact ih hcoherent next _ _
      | none =>
        cases firstNode? .synchronized directory nodes with
        | some folder => exact ⟨rfl, rfl, hcoherent⟩
        | none =>
          refine (refines_createGroup hcoherent hchildren hgroup).andThen ?_
          intro next r hr
          exact ih hr next _ _

lemma refines_attachAll {r : Registrar} (h : r.Coherent) (file : ObjectId) (fileName : String)
    (targets : List Target) :
    Refines (attachAll file fileName targets r) (Project.attachAll file targets r.project) := by
  induction targets generalizing r with
  | nil => exact ⟨rfl, rfl, h⟩
  | cons target rest ih =>
    have hkept := treeKept_attach h.listed target file
    rw [attachAll, Project.attachAll]
    split
    · next e p hattempt =>
      rw [hattempt] at hkept ⊢
      exact ⟨rfl, rfl, h.keep hkept⟩
    · next attachment p hattempt =>
      rw [hattempt] at hkept ⊢
      refine (ih ((h.keep hkept).record _)).andThen ?_
      intro names r hr
      exact ⟨rfl, rfl, hr⟩

lemma refines_registerFile {r : Registrar} (h : r.Coherent) (path : String) (group : ObjectId)
    (fileName : String) (created : List String) :
    Refines (r.registerFile path group fileName created)
      (r.project.registerFile path group fileName created) := by
  unfold registerFile Project.registerFile
  rcases h.childIndex_cases group with ⟨e, hchildren, hindex⟩ |
    ⟨nodes, r', hchildren, hindex, hproject, hcoherent⟩
  · rw [hindex, hchildren]
    exact ⟨rfl, rfl, h⟩
  · rw [hindex, hchildren, Attempt.andThen_ok]
    rw [← hproject] at hchildren ⊢
    simp only [ChildIndex.lookup_files]
    cases hfile : firstNode? .file fileName nodes with
    | some file => exact ⟨rfl, rfl, hcoherent.record _⟩
    | none =>
      refine (refines_createFile hcoherent hchildren hfile).andThen ?_
      intro file r hr
      rw [← hr.targets_eq]
      refine (refines_attachAll hr file fileName r.targets).andThen ?_
      intro names r hr
      exact ⟨rfl, rfl, hr.record _⟩

/-- Registering a path with a coherent registrar is registering it without one. -/
theorem refines_register {r : Registrar} (h : r.Coherent) (path : String) :
    Refines (r.register path) (r.project.registerPath path) := by
  unfold register registerPath
  cases Path.split path with
  | none => exact ⟨rfl, rfl, h.record _⟩
  | some parts =>
    refine (refines_descend h r.project.mainGroup [] [] parts.directories).andThen ?_
    rintro ⟨way, created⟩ r hr
    cases way with
    | intoFolder folder => exact ⟨rfl, rfl, hr.record _⟩
    | toGroup group => exact refines_registerFile hr path group parts.fileName created

lemma refines_registerAll {r : Registrar} (h : r.Coherent) (paths : List String) :
    Refines (registerAll paths r) (registerPaths paths r.project) := by
  induction paths generalizing r with
  | nil => exact ⟨rfl, rfl, h⟩
  | cons path rest ih =>
    rw [registerAll, registerPaths]
    refine (refines_register h path).andThen ?_
    intro registration r hr
    refine (ih hr).andThen ?_
    intro registrations r hr
    exact ⟨rfl, rfl, hr⟩

end Registrar

/-! ## One registrar or many -/

namespace Project

open Registrar

lemma register_eq {p : Project} (hp : p.ChildrenListed) (paths : List String) :
    p.register paths =
      ⟨(registerPaths paths p).result.map Report.mk, (registerPaths paths p).state⟩ := by
  have hrun := refines_registerAll (coherent_ofProject hp) paths
  unfold register
  simp only [hrun.result_eq, hrun.project_eq]
  rfl

lemma childrenListed_registerPaths {p : Project} (hp : p.ChildrenListed) (paths : List String) :
    (registerPaths paths p).state.ChildrenListed := by
  have hrun := refines_registerAll (coherent_ofProject hp) paths
  have hlisted := hrun.coherent.listed
  rw [hrun.project_eq] at hlisted
  exact hlisted

lemma registerPaths_append (before after : List String) (p : Project) :
    registerPaths (before ++ after) p = (registerPaths before p).andThen fun first p =>
      (registerPaths after p).andThen fun second p => ⟨.ok (first ++ second), p⟩ := by
  induction before generalizing p with
  | nil =>
    rw [registerPaths, Attempt.andThen_ok, List.nil_append]
    obtain ⟨result, q⟩ := registerPaths after p
    cases result <;> rfl
  | cons path rest ih =>
    rw [List.cons_append, registerPaths, registerPaths]
    obtain ⟨result, q⟩ := p.registerPath path
    cases result with
    | error e => rfl
    | ok registration =>
      simp only [Attempt.andThen_ok, ih]
      obtain ⟨result, q⟩ := registerPaths rest q
      cases result with
      | error e => rfl
      | ok registrations =>
        simp only [Attempt.andThen_ok]
        obtain ⟨result, q⟩ := registerPaths after q
        cases result <;> rfl

/-- Registers paths one after the other, each with a registrar of its own, and goes on after one
that is refused. -/
def registerEachAfresh :
    List String → Project → List (Except EditError Registration) × Project
  | [], p => ([], p)
  | path :: rest, p =>
    let attempt := (Registrar.ofProject p).register path
    let (results, p) := registerEachAfresh rest attempt.state.project
    (attempt.result :: results, p)

lemma registerEach_eq {r : Registrar} (h : r.Coherent) (paths : List String) :
    Prod.map id Registrar.project (registerEach paths r) =
      registerEachAfresh paths r.project := by
  induction paths generalizing r with
  | nil => rfl
  | cons path rest ih =>
    have hstep := refines_register h path
    have hfresh := refines_register (coherent_ofProject h.listed) path
    have hresult : (r.register path).result =
        ((Registrar.ofProject r.project).register path).result :=
      hstep.result_eq.trans hfresh.result_eq.symm
    have hproject : (r.register path).state.project =
        ((Registrar.ofProject r.project).register path).state.project :=
      hstep.project_eq.trans hfresh.project_eq.symm
    have hrest := ih hstep.coherent
    rw [hproject] at hrest
    rw [registerEach, registerEachAfresh, ← hrest, ← hresult]
    rfl

/-- What comes of registering paths does not depend on what the registrar remembers of the paths
before. -/
theorem one_registrar_as_good_as_many {p : Project} (hp : p.ChildrenListed) :
    (∀ paths, Prod.map id Registrar.project (registerEach paths (.ofProject p)) =
      registerEachAfresh paths p) ∧
    ∀ before after, p.register (before ++ after) =
      (p.register before).andThen fun first p =>
        (p.register after).andThen fun second p => ⟨.ok ⟨first.paths ++ second.paths⟩, p⟩ := by
  refine ⟨registerEach_eq (coherent_ofProject hp), ?_⟩
  intro before after
  have hlisted := childrenListed_registerPaths hp before
  rw [register_eq hp, register_eq hp, registerPaths_append]
  generalize registerPaths before p = attempt at hlisted ⊢
  obtain ⟨result, q⟩ := attempt
  cases result with
  | error e => rfl
  | ok first =>
    simp only [Except.map, Attempt.andThen_ok]
    rw [register_eq hlisted]
    obtain ⟨result, q⟩ := registerPaths after q
    cases result <;> rfl

/-- A project with a group, a synchronized folder and a target. -/
def sampleProject : Project where
  path := "Sample.xcodeproj/project.pbxproj"
  name := some "Sample"
  settings := [("rootObject", .string "PROJECT")]
  objects :=
    [("FILE", .dictionary [("isa", .string Kind.fileReference), ("path", .string "x.swift")]),
      ("GROUP", .dictionary [("children", .array [.string "FILE"]), ("isa", .string Kind.group),
        ("path", .string "A")]),
      ("MAIN", .dictionary [("children", .array [.string "GROUP", .string "SYNC"]),
        ("isa", .string Kind.group)]),
      ("PROJECT", .dictionary [("isa", .string Kind.project), ("mainGroup", .string "MAIN"),
        ("targets", .array [.string "TARGET"])]),
      ("SYNC", .dictionary [("isa", .string Kind.synchronizedFolder), ("path", .string "S")]),
      ("TARGET", .dictionary [("isa", .string Kind.nativeTarget), ("name", .string "App")])]
  rootObject := "PROJECT"
  mainGroup := "MAIN"

/-- A path that needs a group and a file, one that is there, one without a file name, one into the
synchronized folder, and the first one again. -/
def samplePaths : List String :=
  ["A/B/y.h", "A/x.swift", "A/..", "S/z", "./A//B/y.h"]

lemma childrenListed_sampleProject : sampleProject.ChildrenListed := by
  decide

theorem one_registrar_as_good_as_many_sample :
    sampleProject.ChildrenListed ∧
      Prod.map id Registrar.project (registerEach samplePaths (.ofProject sampleProject)) =
        registerEachAfresh samplePaths sampleProject := by
  have hlisted := childrenListed_sampleProject
  exact ⟨hlisted, (one_registrar_as_good_as_many hlisted).1 samplePaths⟩

end Project

end XcodeProject
