import Mathlib
import XcodeProject.Proofs.ObjectId.FreshSearch
import XcodeProject.Proofs.Registration.Attachment
import XcodeProject.Proofs.Registration.LabelsKept

/-!
# What registering a path takes can be told beforehand

The insertions that a path takes depend on what the project has and on what was made for the paths
before.  If new objects get the ids of their first attempt, and if these ids are strange to the
project, the second part does not matter: which insertions there have to be by the time a path is
registered can be told from the project as it was at the beginning.  This is the `plan` of a path.
It looks for groups, files and phases there, and goes on below the ones it does not find with the ids
that they are going to have.

A run from `p` to `last` is followed with its record (`OnWay`).  In between, what a group has is what
it had in `p` and what the record says (`OnWay.nodes_eq`), and the same is true of phases.  So each
look-up of the run finds what the plan says, or what was made for an earlier path, which is then
something that the plan calls for, too.  Each part of the run makes what is left of its part of the
plan (`Fulfils`).

The assumption on ids is about the seeds of the objects that are new at the end (`newSeeds`), which
can be read off the finished project.
-/

namespace XcodeProject

open PropertyList (Value)
open Project (Node NodeKind)
open Registrar (Way)

/-! ## Ids of the first attempt -/

/-- The id of the first attempt. -/
def Insertion.firstId (i : Insertion) : ObjectId :=
  ObjectId.derive i.seed 0

/-- What the id of an object that `owner` lists is derived from when it is made. -/
def Object.seed (object : Object) (owner : ObjectId) : List String :=
  [object.kind, owner] ++ (object.text? "path").toList ++ (object.text? "fileRef").toList

lemma Insertion.seed_object (i : Insertion) : i.object.seed i.owner = i.seed := by
  cases i <;> rfl

lemma Object.seed_congr {object object' : Object} (h : object'.text? = object.text?)
    (owner : ObjectId) : object'.seed owner = object.seed owner := by
  rw [seed, seed, kind, kind, h]

namespace Project

/-- The seeds of the objects that are new in `q`.  A seed has the object that lists the new one, so
the lists of `q` are gone through. -/
def newSeeds (p q : Project) : List (List String) :=
  q.objects.flatMap fun entry =>
    (ObjectTable.listedIn entry.2).flatMap fun id =>
      if p.objects.IsNew q.objects id then ((q.object? id).map (Object.seed · entry.1)).toList
      else []

/-- The ids of the first attempts for some seeds are different from each other and strange to the
project. -/
structure Apart (p : Project) (seeds : List (List String)) : Prop where
  /-- Different seeds have different ids. -/
  injective : ∀ seed ∈ seeds, ∀ other ∈ seeds,
    ObjectId.derive seed 0 = ObjectId.derive other 0 → seed = other
  /-- The ids are not in the table. -/
  free : ∀ seed ∈ seeds, Dict.contains p.objects (ObjectId.derive seed 0) = false
  /-- The ids are not among the strings of the project. -/
  unmentioned : ∀ seed ∈ seeds,
    ObjectId.derive seed 0 ∉ (Value.dictionary p.root).strings

lemma apart_iff (p : Project) (seeds : List (List String)) : p.Apart seeds ↔
    (∀ seed ∈ seeds, ∀ other ∈ seeds,
      ObjectId.derive seed 0 = ObjectId.derive other 0 → seed = other) ∧
    (∀ seed ∈ seeds, Dict.contains p.objects (ObjectId.derive seed 0) = false) ∧
    ∀ seed ∈ seeds, ObjectId.derive seed 0 ∉ (Value.dictionary p.root).strings :=
  ⟨fun h => ⟨h.injective, h.free, h.unmentioned⟩, fun h => ⟨h.1, h.2.1, h.2.2⟩⟩

instance (p : Project) (seeds : List (List String)) : Decidable (p.Apart seeds) :=
  decidable_of_iff' _ (apart_iff p seeds)

/-- The seeds of new objects that are listed are among those read off the project. -/
lemma Inserts.seed_mem_newSeeds {p q : Project} {made : List Inserted} (h : Inserts p made q)
    {m : Inserted} (hm : m ∈ made) (hlinked : m.linked = true) : m.what.seed ∈ newSeeds p q := by
  have hlisted : m.id ∈ q.objects.ids m.what.owner m.what.key := by
    rw [h.ids_eq]
    refine List.mem_append_right _ (List.mem_map_of_mem (List.mem_filter.mpr ⟨hm, ?_⟩))
    simp [hlinked]
  have hnew : p.objects.IsNew q.objects m.id := (h.isNew_iff m.id).mpr (List.mem_map_of_mem hm)
  obtain ⟨made, hmade, htexts⟩ := Option.map_eq_some_iff.mp (h.texts?_of_mem hm)
  obtain ⟨owner, howner, hlisted⟩ := ObjectTable.exists_of_mem_ids hlisted
  have hentry := Dict.mem_of_lookup (ObjectTable.object?_eq_some.mp howner)
  refine List.mem_flatMap.mpr ⟨_, hentry, List.mem_flatMap.mpr ⟨m.id, ?_, ?_⟩⟩
  · exact List.mem_flatMap.mpr ⟨_, m.what.key_mem_listFields, hlisted⟩
  · rw [if_pos hnew, hmade, ← m.what.seed_object, ← Object.seed_congr htexts]
    exact List.mem_singleton_self _

/-! ## The plan of a path -/

/-- The children that an object lists. -/
def nodes (p : Project) (group : ObjectId) : List Node :=
  (p.objects.ids group "children").filterMap p.node?

/-- A group has neither a group nor a synchronized folder for a directory. -/
def Lacks (p : Project) (group : ObjectId) (directory : String) : Prop :=
  firstNode? .group directory (p.nodes group) = none ∧
    firstNode? .synchronized directory (p.nodes group) = none

instance (p : Project) (group : ObjectId) (directory : String) :
    Decidable (p.Lacks group directory) :=
  inferInstanceAs (Decidable (_ ∧ _))

/-- Where a directory leads from a group, if need be to a group that is going to be made. -/
def stepInto (p : Project) (group : ObjectId) (directory : String) : Way :=
  match firstNode? .group directory (p.nodes group),
    firstNode? .synchronized directory (p.nodes group) with
  | some next, _ => .toGroup next
  | none, some folder => .intoFolder folder
  | none, none => .toGroup (Insertion.firstId (.group group directory directory))

/-- Where directories lead from a group. -/
def wayTo (p : Project) (group : ObjectId) : List String → Way
  | [] => .toGroup group
  | directory :: rest =>
    match p.stepInto group directory with
    | .toGroup next => p.wayTo next rest
    | .intoFolder folder => .intoFolder folder

/-- The groups that are to be made on the way. -/
def missingGroups (p : Project) (group : ObjectId) : List String → List Insertion
  | [] => []
  | directory :: rest =>
    (if p.Lacks group directory then [.group group directory directory] else []) ++
      match p.stepInto group directory with
      | .toGroup next => p.missingGroups next rest
      | .intoFolder _ => []

/-- The phase that a target is to have, if it does not have one of the kind. -/
def missingPhase (p : Project) (target : ObjectId) (kind : String) : List Insertion :=
  if p.firstPhase? target kind = none then [.phase target kind] else []

/-- The first phase of a kind that the target is going to have. -/
def phaseFor (p : Project) (target : ObjectId) (kind : String) : ObjectId :=
  (p.firstPhase? target kind).getD (Insertion.firstId (.phase target kind))

/-- What attaching a new file to a target takes. -/
def attachment (p : Project) (file : ObjectId) (fileName : String) (target : Target) :
    List Insertion :=
  if target.acceptsFiles then
    p.missingPhase target.id (phaseKind fileName) ++
      [.buildFile (p.phaseFor target.id (phaseKind fileName)) file]
  else []

/-- What attaching a new file of a group to all targets takes. -/
def attachments (p : Project) (group : ObjectId) (fileName : String) : List Insertion :=
  p.targets.flatMap (p.attachment (Insertion.firstId (.file group fileName)) fileName)

/-- What registering a file name in a group takes. -/
def missingFile (p : Project) (group : ObjectId) (fileName : String) : List Insertion :=
  if firstNode? .file fileName (p.nodes group) = none then
    .file group fileName :: p.attachments group fileName
  else []

/-- What registering a path takes. -/
def plan (p : Project) (path : String) : List Insertion :=
  match Path.split path with
  | none => []
  | some parts =>
    p.missingGroups p.mainGroup parts.directories ++
      match p.wayTo p.mainGroup parts.directories with
      | .toGroup group => p.missingFile group parts.fileName
      | .intoFolder _ => []

end Project

/-- A group that is made has the name of its directory, and nothing was there for that. -/
def Insertion.Needed (p : Project) : Insertion → Prop
  | .group parent name path => name = path ∧ p.Lacks parent path
  | _ => True

lemma Insertion.Needed.eq_of_seed_eq {p : Project} {i j : Insertion} (hi : i.Needed p)
    (hj : j.Needed p) (h : i.seed = j.seed) : i = j := by
  have hkinds : [Kind.group, Kind.fileReference, Kind.buildFile].Nodup := by decide
  cases i <;> cases j <;> simp_all [seed, Needed]

namespace Project

/-! ## On the way -/

/-- The new object as a child. -/
def Inserted.node (m : Inserted) : Node :=
  .ofObject m.id m.what.object

/-- The children that a group has got. -/
def addedNodes (made : List Inserted) (group : ObjectId) : List Node :=
  (made.filter fun m => m.linked ∧ m.what.owner = group ∧ m.what.key = "children").map
    Inserted.node

lemma addedNodes_append (made more : List Inserted) (group : ObjectId) :
    addedNodes (made ++ more) group = addedNodes made group ++ addedNodes more group := by
  rw [addedNodes, List.filter_append, List.map_append]
  rfl

/-- The id of an insertion, if it is on record, and if that is the id of its first attempt. -/
def madeId? (made : List Inserted) (i : Insertion) : Option ObjectId :=
  if i ∈ made.map Inserted.what then some i.firstId else none

lemma madeId?_eq_none {made : List Inserted} {i : Insertion} :
    madeId? made i = none ↔ i ∉ made.map Inserted.what := by
  simp [madeId?]

lemma madeId?_eq_some {made : List Inserted} {i : Insertion} {id : ObjectId} :
    madeId? made i = some id ↔ i ∈ made.map Inserted.what ∧ i.firstId = id := by
  simp [madeId?]

/-- In a part of the record, look for something that only one insertion brings about. -/
lemma find?_made {β : Type} {made : List Inserted} {listed : Inserted → Bool} {f : Inserted → β}
    {found : β → Bool} {i : Insertion} {b : β}
    (hfound : ∀ m ∈ made, listed m = true ∧ found (f m) = true ↔ m.what = i)
    (hvalue : ∀ m ∈ made, m.what = i → f m = b) :
    ((made.filter listed).map f).find? found =
      if i ∈ made.map Inserted.what then some b else none := by
  split
  · next hi =>
    obtain ⟨m, hm, hwhat⟩ := List.mem_map.mp hi
    obtain ⟨hlisted, hthis⟩ := (hfound m hm).mpr hwhat
    have hmem : f m ∈ (made.filter listed).map f :=
      List.mem_map_of_mem (List.mem_filter.mpr ⟨hm, hlisted⟩)
    obtain ⟨value, hfind⟩ := Option.isSome_iff_exists.mp
      (List.find?_isSome.mpr ⟨f m, hmem, hthis⟩)
    obtain ⟨other, hother, rfl⟩ := List.mem_map.mp (List.mem_of_find?_eq_some hfind)
    obtain ⟨hother, hlisted'⟩ := List.mem_filter.mp hother
    rw [hfind, hvalue other hother ((hfound other hother).mp ⟨hlisted', List.find?_some hfind⟩)]
  · next hi =>
    rw [List.find?_eq_none]
    intro value hvalue hthis
    obtain ⟨m, hm, rfl⟩ := List.mem_map.mp hvalue
    obtain ⟨hm, hlisted⟩ := List.mem_filter.mp hm
    exact hi (List.mem_map.mpr ⟨m, hm, (hfound m hm).mp ⟨hlisted, hthis⟩⟩)

/-- A project between `p` and `last`, with the record so far.  All new objects are in the lists of
their owners and have the ids of their first attempts. -/
structure OnWay (p last : Project) (done : List Inserted) (q : Project) : Prop where
  /-- The record is one of the way from `p`. -/
  inserts : Inserts p done q
  /-- There is a way to `last`. -/
  later : Develops q last
  /-- Everything is listed. -/
  linked : ∀ m ∈ done, m.linked = true
  /-- The ids are those of the first attempts. -/
  id_eq : ∀ m ∈ done, m.id = m.what.firstId
  /-- No group was made without need. -/
  needed : ∀ m ∈ done, m.what.Needed p

lemma mem_strings_root {p : Project} {id : ObjectId} {object : Object} {text : String}
    (hobject : p.object? id = some object) (htext : text ∈ (Value.dictionary object).strings) :
    text ∈ (Value.dictionary p.root).strings := by
  have hlookup : p.root.lookup "objects" = some (.dictionary p.objects) := by
    rw [root, Dict.lookup_insert, if_pos rfl]
  exact Value.mem_strings_of_lookup hlookup
    (Value.mem_strings_of_lookup (ObjectTable.object?_eq_some.mp hobject) htext)

lemma mem_strings_of_text? {p : Project} {id : ObjectId} {key text : String}
    (h : p.objects.text? id key = some text) : text ∈ (Value.dictionary p.root).strings := by
  obtain ⟨object, hobject, htext⟩ := Option.bind_eq_some_iff.mp h
  obtain ⟨value, hvalue, hstring⟩ := Option.bind_eq_some_iff.mp htext
  obtain rfl := Value.string?_eq_some.mp hstring
  exact mem_strings_root hobject
    (Value.mem_strings_of_lookup hvalue (Value.mem_strings_string text))

lemma node?_eq_map (p : Project) (id : ObjectId) :
    p.node? id = (p.texts? id).map fun text? =>
      ⟨id, .ofKind ((text? "isa").getD ""), text? "name", text? "path"⟩ := by
  rw [node?, texts?, Option.map_map]
  rfl

namespace OnWay

variable {p last q q' : Project} {done more : List Inserted}

lemma seed_mem (h : OnWay p last done q) {m : Inserted} (hm : m ∈ done) :
    m.what.seed ∈ newSeeds p last := by
  obtain ⟨rest, hrest⟩ := h.later
  exact (h.inserts.trans hrest).seed_mem_newSeeds (List.mem_append_left _ hm) (h.linked m hm)

/-- Among the children that a group has got there is one of a sort and with a path if the insertion
that makes it is on record. -/
lemma firstNode?_addedNodes (h : OnWay p last done q) {group : ObjectId} {kind : NodeKind}
    {path : String} {i : Insertion}
    (hmatches : ∀ j : Insertion, j.Needed p → ∀ id,
      (j.owner = group ∧ j.key = "children") ∧ (Node.ofObject id j.object).Matches kind path ↔
        j = i) :
    firstNode? kind path (addedNodes done group) = madeId? done i := by
  have hfind : (addedNodes done group).find? (fun node => node.Matches kind path) =
      if i ∈ done.map Inserted.what then some (.ofObject i.firstId i.object) else none := by
    refine find?_made (fun m hm => ?_) (fun m hm hwhat => ?_)
    · rw [← hmatches m.what (h.needed m hm) m.id]
      constructor
      · rintro ⟨hlisted, hthis⟩
        exact ⟨(of_decide_eq_true hlisted).2, of_decide_eq_true hthis⟩
      · rintro ⟨hlisted, hthis⟩
        exact ⟨decide_eq_true ⟨h.linked m hm, hlisted⟩, decide_eq_true hthis⟩
    · rw [Inserted.node, h.id_eq m hm, hwhat]
  rw [firstNode?, hfind, madeId?]
  split <;> rfl

section Apart

variable (hapart : p.Apart (newSeeds p last))

include hapart

lemma id_notMem_strings (h : OnWay p last done q) {m : Inserted} (hm : m ∈ done) :
    m.id ∉ (Value.dictionary p.root).strings := by
  rw [h.id_eq m hm]
  exact hapart.unmentioned _ (h.seed_mem hm)

/-- The lists of the project at the beginning do not have new ids. -/
lemma notMem_of_ids (h : OnWay p last done q) {id owner : ObjectId} {key : String}
    (hid : id ∈ p.objects.ids owner key) : id ∉ done.map Inserted.id := by
  intro hmade
  obtain ⟨m, hm, rfl⟩ := List.mem_map.mp hmade
  obtain ⟨object, hobject, hid⟩ := ObjectTable.exists_of_mem_ids hid
  exact h.id_notMem_strings hapart hm
    (mem_strings_root hobject (Document.mem_strings_of_mem_ids hid))

/-- The children of a group are those at the beginning and those in the record. -/
theorem nodes_eq (h : OnWay p last done q) (group : ObjectId) :
    q.nodes group = p.nodes group ++ addedNodes done group := by
  unfold nodes
  rw [h.inserts.ids_eq, List.filterMap_append]
  congr 1
  · refine List.filterMap_congr fun child hchild => ?_
    rw [node?_eq_map, node?_eq_map, h.inserts.texts?_of_notMem (h.notMem_of_ids hapart hchild)]
  · rw [listedBy, List.filterMap_map, addedNodes, ← List.filterMap_eq_map]
    refine List.filterMap_congr fun m hm => ?_
    rw [Function.comp_apply, node?_eq_map, h.inserts.texts?_of_mem (List.mem_of_mem_filter hm)]
    rfl

/-! ### What look-ups find -/

lemma firstNode?_group (h : OnWay p last done q) (group : ObjectId) (directory : String) :
    firstNode? .group directory (q.nodes group) =
      (firstNode? .group directory (p.nodes group)).or
        (madeId? done (.group group directory directory)) := by
  rw [h.nodes_eq hapart, firstNode?_append, h.firstNode?_addedNodes]
  intro j hj id
  cases j with
  | group parent name path =>
    obtain ⟨rfl, -⟩ := hj
    show _ ∧ NodeKind.group = _ ∧ some name = _ ↔ _
    simp [Insertion.owner, Insertion.key]
  | file parent path =>
    show _ ∧ NodeKind.file = _ ∧ _ ↔ _
    simp
  | phase target kind => simp [Insertion.key]
  | buildFile holder built => simp [Insertion.key]

lemma firstNode?_file (h : OnWay p last done q) (group : ObjectId) (fileName : String) :
    firstNode? .file fileName (q.nodes group) =
      (firstNode? .file fileName (p.nodes group)).or
        (madeId? done (.file group fileName)) := by
  rw [h.nodes_eq hapart, firstNode?_append, h.firstNode?_addedNodes]
  intro j hj id
  cases j with
  | group parent name path =>
    show _ ∧ NodeKind.group = _ ∧ _ ↔ _
    simp
  | file parent path =>
    show _ ∧ NodeKind.file = _ ∧ some path = _ ↔ _
    simp [Insertion.owner, Insertion.key]
  | phase target kind => simp [Insertion.key]
  | buildFile holder built => simp [Insertion.key]

/-- No synchronized folders are made. -/
lemma firstNode?_synchronized (h : OnWay p last done q) (group : ObjectId) (directory : String) :
    firstNode? .synchronized directory (q.nodes group) =
      firstNode? .synchronized directory (p.nodes group) := by
  have hnone : firstNode? .synchronized directory (addedNodes done group) = none := by
    rw [firstNode?, Option.map_eq_none_iff, List.find?_eq_none]
    intro node hnode hmatches
    obtain ⟨m, hm, rfl⟩ := List.mem_map.mp hnode
    have hkey := (of_decide_eq_true (List.mem_filter.mp hm).2).2.2
    have hsort : (Node.ofObject m.id m.what.object).kind = .synchronized :=
      (of_decide_eq_true hmatches).1
    generalize m.what = i at hkey hsort
    cases i with
    | group parent name path => cases hsort
    | file parent path => cases hsort
    | phase target kind => simp [Insertion.key] at hkey
    | buildFile holder built => simp [Insertion.key] at hkey
  rw [h.nodes_eq hapart, firstNode?_append, hnone, Option.or_none]

lemma firstPhase?_eq (h : OnWay p last done q) (target : ObjectId) (kind : String) :
    q.firstPhase? target kind =
      (p.firstPhase? target kind).or (madeId? done (.phase target kind)) := by
  unfold firstPhase? madeId?
  rw [h.inserts.ids_eq, List.find?_append]
  congr 1
  · refine List.find?_congr fun phase hphase => ?_
    have hsame : q.objects.kind? phase = p.objects.kind? phase :=
      h.inserts.text?_of_notMem (h.notMem_of_ids hapart hphase) "isa"
    rw [hsame]
  · refine find?_made (fun m hm => ?_) (fun m hm hwhat => by rw [h.id_eq m hm, hwhat])
    have hkind : q.objects.kind? m.id = m.what.object.text? "isa" := h.inserts.text?_of_mem hm "isa"
    simp only [hkind, h.linked m hm, decide_eq_true_eq, true_and]
    cases m.what with
    | phase other sort =>
      show _ ∧ some sort = some kind ↔ _
      simp [Insertion.owner, Insertion.key]
    | group parent name path => simp [Insertion.key]
    | file parent path => simp [Insertion.key]
    | buildFile holder built => simp [Insertion.key]

/-- A phase has a new file if the build file for it is on record. -/
lemma phaseHolds_iff (h : OnWay p last done q) {phase file : ObjectId}
    (hfile : file ∈ done.map Inserted.id) :
    q.phaseHolds phase file = true ↔ .buildFile phase file ∈ done.map Inserted.what := by
  rw [Project.phaseHolds_iff, h.inserts.ids_eq]
  constructor
  · rintro ⟨entry, hentry, hbuilt⟩
    rcases List.mem_append.mp hentry with hold | hnew
    · -- An entry that was there is for a file that was there.
      rw [h.inserts.text?_of_notMem (h.notMem_of_ids hapart hold)] at hbuilt
      obtain ⟨m, hm, rfl⟩ := List.mem_map.mp hfile
      exact absurd (mem_strings_of_text? hbuilt) (h.id_notMem_strings hapart hm)
    · obtain ⟨m, hlisted, rfl⟩ := List.mem_map.mp hnew
      obtain ⟨hm, howner⟩ := List.mem_filter.mp hlisted
      rw [h.inserts.text?_of_mem hm, Insertion.text?_fileRef_eq_some] at hbuilt
      obtain ⟨holder, hwhat⟩ := hbuilt
      have hholder : m.what.owner = phase := (of_decide_eq_true howner).2.1
      rw [hwhat] at hholder
      cases hholder
      exact List.mem_map.mpr ⟨m, hm, hwhat⟩
  · intro hmade
    obtain ⟨m, hm, hwhat⟩ := List.mem_map.mp hmade
    refine ⟨m.id, List.mem_append_right _ (List.mem_map_of_mem (List.mem_filter.mpr ⟨hm, ?_⟩)), ?_⟩
    · simp [h.linked m hm, hwhat, Insertion.owner, Insertion.key]
    · rw [h.inserts.text?_of_mem hm, hwhat]
      rfl

/-! ### One more insertion -/

/-- An insertion that is not on record gives the id of its first attempt. -/
theorem insert (h : OnWay p last done q) {i : Insertion} {object : Object} {id : ObjectId}
    (hproper : i.Proper) (howner : q.object? i.owner = some object) (hneeded : i.Needed p)
    (hnew : i ∉ done.map Inserted.what) (hinsert : q.insert i = ⟨.ok id, q'⟩)
    (hlater : Develops q' last) :
    id = i.firstId ∧ OnWay p last (done ++ [⟨i, id, true⟩]) q' := by
  have hinserts := h.inserts.trans (inserts_of_insert_eq_ok hproper howner hinsert)
  have hseed : i.seed ∈ newSeeds p last := by
    obtain ⟨rest, hrest⟩ := hlater
    exact (hinserts.trans hrest).seed_mem_newSeeds (m := ⟨i, id, true⟩) (by simp) rfl
  have hfree : Dict.contains q.objects (ObjectId.derive i.seed 0) = false := by
    refine Bool.eq_false_iff.mpr fun hold => ?_
    rcases (h.inserts.contains_iff _).mp hold with hbefore | hmade
    · rw [hapart.free _ hseed] at hbefore
      cases hbefore
    · obtain ⟨m, hm, hid⟩ := List.mem_map.mp hmade
      rw [h.id_eq m hm] at hid
      have hsame := hapart.injective _ (h.seed_mem hm) _ hseed hid
      exact hnew (List.mem_map.mpr ⟨m, hm, (h.needed m hm).eq_of_seed_eq hneeded hsame⟩)
  have hid : id = i.firstId := by
    rw [← fresh_of_insert_eq_ok howner hinsert, (ObjectId.Finds.free hfree).fresh_eq]
    rfl
  refine ⟨hid, hinserts, hlater, ?_, ?_, ?_⟩
  · simpa [or_imp, forall_and] using h.linked
  · simpa [or_imp, forall_and, hid] using h.id_eq
  · simpa [or_imp, forall_and, hneeded] using h.needed

end Apart

end OnWay

/-! ## Parts of a run and parts of a plan -/

/-- What was made is part of a plan, and with what was there before it is the whole of it. -/
structure Fulfils (done more : List Inserted) (plan : List Insertion) : Prop where
  /-- Nothing else was made. -/
  planned : ∀ m ∈ more, m.what ∈ plan
  /-- Nothing is left to be made. -/
  made : ∀ i ∈ plan, i ∈ (done ++ more).map Inserted.what

namespace Fulfils

variable {done more more' : List Inserted} {plan plan' : List Insertion}

/-- Everything was there already. -/
lemma of_subset (h : ∀ i ∈ plan, i ∈ done.map Inserted.what) : Fulfils done [] plan :=
  ⟨nofun, by simpa using h⟩

lemma of_known {known : List Insertion} (hknown : ∀ i ∈ known, i ∈ done.map Inserted.what)
    (h : Fulfils done more plan) : Fulfils done more (known ++ plan) := by
  constructor
  · intro m hm
    exact List.mem_append_right _ (h.planned m hm)
  · intro i hi
    rcases List.mem_append.mp hi with hi | hi
    · rw [List.map_append]
      exact List.mem_append_left _ (hknown i hi)
    · exact h.made i hi

lemma single (m : Inserted) : Fulfils done [m] [m.what] :=
  ⟨by simp, by simp⟩

lemma trans (h : Fulfils done more plan) (h' : Fulfils (done ++ more) more' plan') :
    Fulfils done (more ++ more') (plan ++ plan') := by
  constructor
  · intro m hm
    rw [List.mem_append] at hm ⊢
    exact hm.imp (h.planned m) (h'.planned m)
  · intro i hi
    rw [← List.append_assoc, List.map_append, List.mem_append]
    rcases List.mem_append.mp hi with hi | hi
    · exact .inl (h.made i hi)
    · rw [← List.mem_append, ← List.map_append]
      exact h'.made i hi

lemma mem_iff (h : Fulfils done more plan) (i : Insertion) :
    i ∈ (done ++ more).map Inserted.what ↔ i ∈ done.map Inserted.what ∨ i ∈ plan := by
  constructor
  · intro hi
    rw [List.map_append, List.mem_append] at hi
    refine hi.imp_right fun hmore => ?_
    obtain ⟨m, hm, rfl⟩ := List.mem_map.mp hmore
    exact h.planned m hm
  · rintro (hi | hi)
    · rw [List.map_append]
      exact List.mem_append_left _ hi
    · exact h.made i hi

end Fulfils

/-! ## Attaching -/

section Attach

variable {p last q q' : Project} {done : List Inserted} (hapart : p.Apart (newSeeds p last))

include hapart

lemma OnWay.ensurePhase (h : OnWay p last done q) {target : ObjectId} {path : String}
    {phase : Phase} (hrun : q.ensurePhase target (phaseKind path) = ⟨.ok phase, q'⟩)
    (hlater : Develops q' last) :
    phase.id = p.phaseFor target (phaseKind path) ∧ ∃ more, OnWay p last (done ++ more) q' ∧
      Fulfils done more (p.missingPhase target (phaseKind path)) := by
  have hfirst := h.firstPhase?_eq hapart target (phaseKind path)
  rw [ensurePhase_eq] at hrun
  split at hrun
  · cases hrun
  next object hobject =>
  rw [firstPhase?, ids_of_object? hobject] at hfirst
  unfold phaseFor missingPhase
  split at hrun
  · next found hfound =>
    cases hrun
    rw [hfound, eq_comm, Option.or_eq_some_iff] at hfirst
    rcases hfirst with hold | ⟨hnone, hmade⟩
    · rw [hold]
      exact ⟨rfl, [], by simpa using h, .of_subset (by simp)⟩
    · obtain ⟨hmem, rfl⟩ := madeId?_eq_some.mp hmade
      rw [hnone]
      exact ⟨rfl, [], by simpa using h, .of_subset (by simpa using hmem)⟩
  · next hnone =>
    obtain ⟨id, made, hinsert, hphase⟩ := Attempt.andThen_eq_ok hrun
    cases hphase
    rw [hnone, eq_comm, Option.or_eq_none_iff, madeId?_eq_none] at hfirst
    obtain ⟨hbefore, hnew⟩ := hfirst
    obtain ⟨rfl, hway⟩ := h.insert hapart (i := .phase target (phaseKind path)) ⟨path, rfl⟩
      hobject trivial hnew hinsert hlater
    rw [hbefore]
    exact ⟨rfl, _, hway, .single _⟩

lemma OnWay.addBuildFile (h : OnWay p last done q) {phase : Phase} {kind : String}
    (hphase : q.objects.kind? phase.id = some kind) {file : ObjectId}
    (hfile : file ∈ done.map Inserted.id) {attachment : Attachment}
    (hrun : q.addBuildFile phase file = ⟨.ok attachment, q'⟩) (hlater : Develops q' last) :
    ∃ more, OnWay p last (done ++ more) q' ∧ Fulfils done more [.buildFile phase.id file] := by
  have hholds : q.phaseHolds phase.id file = true ↔
      .buildFile phase.id file ∈ done.map Inserted.what := h.phaseHolds_iff hapart hfile
  rw [addBuildFile_eq] at hrun
  split at hrun
  · next hheld =>
    cases hrun
    refine ⟨[], by simpa using h, .of_subset ?_⟩
    simpa using hholds.mp hheld
  · next hheld =>
    obtain ⟨id, made, hinsert, hadded⟩ := Attempt.andThen_eq_ok hrun
    cases hadded
    obtain ⟨object, hobject, -⟩ := object?_of_kind? hphase
    obtain ⟨-, hway⟩ := h.insert hapart (i := .buildFile phase.id file) trivial hobject trivial
      (fun hmem => hheld (hholds.mpr hmem)) hinsert hlater
    exact ⟨_, hway, .single _⟩

/-- Attaching a file that was made makes what is left of what that takes. -/
theorem OnWay.attach (h : OnWay p last done q) {group : ObjectId} {fileName : String}
    (hfile : .file group fileName ∈ done.map Inserted.what) {target : Target}
    {attachment : Attachment}
    (hrun : q.attach target (Insertion.firstId (.file group fileName)) = ⟨.ok attachment, q'⟩)
    (hlater : Develops q' last) :
    ∃ more, OnWay p last (done ++ more) q' ∧ Fulfils done more
      (p.attachment (Insertion.firstId (.file group fileName)) fileName target) := by
  obtain ⟨m, hm, hwhat⟩ := List.mem_map.mp hfile
  have hid : m.id = Insertion.firstId (.file group fileName) := by rw [h.id_eq m hm, hwhat]
  have hreference : q.IsFile m.id fileName := by
    constructor
    · exact (h.inserts.text?_of_mem hm "isa").trans (by rw [hwhat]; rfl)
    · exact (h.inserts.text?_of_mem hm "path").trans (by rw [hwhat]; rfl)
  obtain ⟨reference, hfound, hpath⟩ := hreference.fileReference?
  rw [← hid] at hrun ⊢
  unfold Project.attach at hrun
  unfold Project.attachment
  split at hrun
  · next haccepts =>
    rw [hfound] at hrun
    simp only [hpath, Option.getD_some] at hrun
    rw [if_pos haccepts]
    obtain ⟨phase, middle, hensure, hadd⟩ := Attempt.andThen_eq_ok hrun
    have hkind := kind?_ensurePhase hensure
    have hcontains : Dict.contains q.objects m.id = true :=
      (h.inserts.contains_iff m.id).mpr (.inr (List.mem_map_of_mem hm))
    have hdevelops := spans_develops.addBuildFile hkind (contains_of_ensurePhase hensure hcontains)
    rw [hadd] at hdevelops
    obtain ⟨hphase, first, hway, hfirst⟩ :=
      h.ensurePhase hapart hensure (trans_of Develops hdevelops hlater)
    have hmade : m.id ∈ (done ++ first).map Inserted.id :=
      List.mem_map_of_mem (List.mem_append_left _ hm)
    obtain ⟨second, hway, hsecond⟩ := hway.addBuildFile hapart hkind hmade hadd hlater
    rw [hphase] at hsecond
    exact ⟨first ++ second, by rwa [← List.append_assoc], hfirst.trans hsecond⟩
  · next hdeclines =>
    cases hrun
    rw [if_neg hdeclines]
    exact ⟨[], by simpa using h, .of_subset (by simp)⟩

end Attach

end Project

end XcodeProject
