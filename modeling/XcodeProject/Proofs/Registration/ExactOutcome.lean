import Mathlib
import XcodeProject.Proofs.Registration.Accounts
import XcodeProject.Proofs.Registration.NeverRefused

/-!
# What a registration says about changes

A path is followed down through groups that are there, and then through groups that are made.  Once
a group has been made there is no way back: the registrar remembers a new group as empty, so in it
there is no group, no synchronized folder and no file to be found (`wentDown_of_empty`).  So a path
for which a group is made gets a file reference, too, and a path that gets none leaves the project as
it is.

What a registrar remembers need not be all that its project has.  Lists may have ids without an
object, and such an id may come to have one after the list was looked at.  Nor is it forgotten when a
path is refused halfway.  But every group it remembers is there, with the path it is remembered under
(`Remembers`), and no step of a registrar changes that, refused or not (`keeps_register`).
-/

namespace XcodeProject

namespace Project

variable {p q : Project} {made : List Inserted}

/-- Groups for directories, each in the one before. -/
inductive Nested (p : Project) : ObjectId → List String → List ObjectId → Prop
  /-- No directories. -/
  | nil (group : ObjectId) : Nested p group [] []
  /-- The group for the first directory, and in it those for the others. -/
  | cons {group next : ObjectId} {directory : String} {rest : List String} {ids : List ObjectId}
      (hnext : p.HoldsGroup group directory next) (more : Nested p next rest ids) :
      Nested p group (directory :: rest) (next :: ids)

lemma Nested.inserts {group : ObjectId} {directories : List String} {ids : List ObjectId}
    (h : p.Nested group directories ids) (hmade : Inserts p made q) :
    q.Nested group directories ids := by
  induction h with
  | nil group => exact .nil group
  | cons hnext _ ih => exact .cons (hnext.inserts hmade) ih

lemma Nested.length_eq {group : ObjectId} {directories : List String} {ids : List ObjectId}
    (h : p.Nested group directories ids) : ids.length = directories.length := by
  induction h with
  | nil => rfl
  | cons _ _ ih => rw [List.length_cons, List.length_cons, ih]

end Project

namespace Registrar

open Project

variable {r r' : Registrar}

/-! ## What is remembered is there -/

/-- The groups that the registrar remembers are in its project. -/
def Remembers (r : Registrar) : Prop :=
  ∀ group index, r.index.lookup group = some index →
    ∀ directory id, index.groups.lookup directory = some id →
      r.project.HoldsGroup group directory id

/-- If the registrar remembers what is there, it does so afterwards. -/
def Keeps (r r' : Registrar) : Prop :=
  r.Remembers → r'.Remembers

instance : IsTrans Registrar Keeps :=
  ⟨fun _ _ _ h h' hr => h' (h hr)⟩

lemma Remembers.inserts (h : r.Remembers) {q : Project} {made : List Inserted}
    (hmade : Inserts r.project made q) : { r with project := q }.Remembers :=
  fun group index hindex directory id hid => (h group index hindex directory id hid).inserts hmade

lemma Remembers.remember (h : r.Remembers) {group : ObjectId} {index : ChildIndex}
    (hindex : ∀ directory id, index.groups.lookup directory = some id →
      r.project.HoldsGroup group directory id) :
    { r with index := Dict.insert r.index group index }.Remembers := by
  intro other found hlookup directory id hid
  rw [Dict.lookup_insert] at hlookup
  split at hlookup
  · next heq =>
    cases hlookup
    rw [heq]
    exact hindex directory id hid
  · exact h other found hlookup directory id hid

lemma keeps_childIndex (r : Registrar) (group : ObjectId) : Keeps r (r.childIndex group).state := by
  intro hr
  unfold childIndex
  split
  · exact hr
  · split
    · exact hr
    · next nodes hnodes => exact hr.remember fun _ _ => holdsGroup_of_children hnodes

/-- What has been looked into is remembered. -/
lemma lookup_of_childIndex {group : ObjectId} {index : ChildIndex}
    (h : r.childIndex group = ⟨.ok index, r'⟩) : r'.index.lookup group = some index := by
  unfold childIndex at h
  split at h
  · next found hfound =>
    cases h
    exact hfound
  · split at h
    · cases h
    · cases h
      show (Dict.insert r.index group _).lookup group = _
      rw [Dict.lookup_insert, if_pos rfl]

lemma childIndex_of_lookup {group : ObjectId} {index : ChildIndex}
    (h : r.index.lookup group = some index) : r.childIndex group = ⟨.ok index, r⟩ := by
  unfold childIndex
  rw [h]

section Create

variable {parent : ObjectId} {index : ChildIndex}

lemma keeps_createGroup (hparent : r.index.lookup parent = some index) (directory : String) :
    Keeps r (r.createGroup parent index directory).state := by
  intro hr
  obtain ⟨made, hmade⟩ := spans_develops.newGroup r.project parent directory directory
  unfold createGroup
  split
  · next e p hnew =>
    rw [hnew] at hmade
    exact hr.inserts hmade
  · next id p hnew =>
    rw [hnew] at hmade
    have hp := hr.inserts hmade
    have hgroups : ∀ other found, (Dict.insert index.groups directory id).lookup other = some found →
        p.HoldsGroup parent other found := by
      intro other found hfound
      rw [Dict.lookup_insert] at hfound
      split at hfound
      · next heq =>
        cases hfound
        rw [heq]
        exact holdsGroup_of_newGroup hnew
      · exact (hr parent index hparent other found hfound).inserts hmade
    -- The parent has its new group in addition, and the new group has none.
    refine (hp.remember hgroups).remember ?_
    intro other found hfound
    cases hfound

lemma keeps_createFile (hparent : r.index.lookup parent = some index) (fileName : String) :
    Keeps r (r.createFile parent index fileName).state := by
  intro hr
  obtain ⟨made, hmade⟩ := spans_develops.newFile r.project parent fileName
  unfold createFile
  split
  · next e p hnew =>
    rw [hnew] at hmade
    exact hr.inserts hmade
  · next id p hnew =>
    rw [hnew] at hmade
    have hp := hr.inserts hmade
    refine hp.remember ?_
    intro other found hfound
    exact (hr parent index hparent other found hfound).inserts hmade

/-- A new group is remembered as empty. -/
lemma lookup_of_createGroup {directory : String} {id : ObjectId}
    (h : r.createGroup parent index directory = ⟨.ok id, r'⟩) :
    r'.index.lookup id = some .empty := by
  unfold createGroup at h
  split at h
  · cases h
  · cases h
    show (Dict.insert _ _ _).lookup _ = _
    rw [Dict.lookup_insert, if_pos rfl]

end Create

lemma index_attachAll (file : ObjectId) (fileName : String) (targets : List Target)
    (r : Registrar) : (attachAll file fileName targets r).state.index = r.index := by
  induction targets generalizing r with
  | nil => rfl
  | cons target rest ih =>
    rw [attachAll]
    split
    · rfl
    · next attachment p _ =>
      have hrest := ih ({ r with project := p }.record (attachmentEvents target fileName attachment))
      generalize attachAll file fileName rest _ = attempt at hrest ⊢
      obtain ⟨result, r'⟩ := attempt
      cases result <;> exact hrest

lemma keeps_attachAll (file : ObjectId) (fileName : String) (r : Registrar) :
    Keeps r (attachAll file fileName r.targets r).state := by
  intro hr group index hindex directory id hid
  have hcovers := spans_develops.covers r.targets
  obtain ⟨made, hmade⟩ := (hcovers.attachAll file fileName (fun _ hmem => hmem) r rfl).2
  rw [index_attachAll] at hindex
  exact (hr group index hindex directory id hid).inserts hmade

lemma keeps_descend (group : ObjectId) (walked created directories : List String)
    (r : Registrar) : Keeps r (descend group walked created directories r).state := by
  induction directories generalizing group walked created r with
  | nil => exact id
  | cons directory rest ih =>
    rw [descend]
    refine Attempt.state_andThen Keeps (keeps_childIndex r group) ?_
    intro index r₁ hindex
    simp only
    split
    · exact ih _ _ _ r₁
    · exact id
    · exact Attempt.state_andThen Keeps (keeps_createGroup (lookup_of_childIndex hindex) directory)
        fun next r₂ _ => ih next _ _ r₂

lemma keeps_registerFile (r : Registrar) (path : String) (group : ObjectId) (fileName : String)
    (created : List String) : Keeps r (r.registerFile path group fileName created).state := by
  unfold registerFile
  refine Attempt.state_andThen Keeps (keeps_childIndex r group) ?_
  intro index r₁ hindex
  split
  · exact id
  · refine Attempt.state_andThen Keeps
      (keeps_createFile (lookup_of_childIndex hindex) fileName) ?_
    intro file r₂ _
    exact Attempt.state_andThen Keeps (keeps_attachAll file fileName r₂) fun _ _ _ => id

theorem keeps_register (r : Registrar) (path : String) : Keeps r (r.register path).state := by
  unfold register
  split
  · exact id
  · refine Attempt.state_andThen Keeps (keeps_descend _ [] [] _ r) ?_
    rintro ⟨way, created⟩ r₁ _
    simp only
    split
    · exact id
    · exact keeps_registerFile r₁ path _ _ created

lemma keeps_registerEach (paths : List String) (r : Registrar) :
    Keeps r (registerEach paths r).2 := by
  induction paths generalizing r with
  | nil => exact id
  | cons path rest ih => exact trans_of Keeps (keeps_register r path) (ih _)

/-! ## The way down -/

/-- What following directories down to a group came to: there were groups for the first directories,
and groups were made for the others. -/
structure WentDown (r : Registrar) (group : ObjectId) (directories : List String)
    (found : List ObjectId) (made : List Inserted) (r' : Registrar) : Prop where
  /-- The groups that were there. -/
  before : Nested r.project group (directories.take found.length) found
  /-- The groups that are there now. -/
  after : Nested r'.project group directories (found ++ made.map Inserted.id)
  /-- Nothing else was made. -/
  inserts : Inserts r.project made r'.project
  /-- What was made are groups. -/
  groups : ∀ m ∈ made, m.what.kind = Kind.group

/-- The names of the groups for directories below `walked`, without the first `depth` of them. -/
def namesBelow (walked directories : List String) (depth : Nat) : List String :=
  (directories.inits.drop (depth + 1)).map fun front => Path.join (walked ++ front)

lemma length_namesBelow (walked directories : List String) (depth : Nat) :
    (namesBelow walked directories depth).length = directories.length - depth := by
  rw [namesBelow, List.length_map, List.length_drop, List.length_inits]
  omega

lemma namesBelow_nil (walked : List String) (depth : Nat) : namesBelow walked [] depth = [] := by
  simp [namesBelow]

lemma namesBelow_succ (walked : List String) (directory : String) (rest : List String)
    (depth : Nat) : namesBelow walked (directory :: rest) (depth + 1) =
      namesBelow (walked ++ [directory]) rest depth := by
  simp [namesBelow, Function.comp_def]

lemma namesBelow_zero (walked : List String) (directory : String) (rest : List String) :
    namesBelow walked (directory :: rest) 0 =
      Path.join (walked ++ [directory]) :: namesBelow (walked ++ [directory]) rest 0 := by
  have hinits : rest.inits = [] :: rest.inits.drop 1 := by cases rest <;> simp
  rw [namesBelow, List.inits_cons, List.drop_succ_cons, List.drop_zero, hinits]
  simp [namesBelow, Function.comp_def]

lemma WentDown.nil (r : Registrar) (group : ObjectId) : WentDown r group [] [] [] r :=
  ⟨.nil group, .nil group, .none, by simp⟩

/-- The first group had to be made. -/
lemma WentDown.make {group next : ObjectId} {directory : String} {rest : List String}
    {made : List Inserted} {r₁ : Registrar}
    (hnew : r.project.newGroup group directory directory = ⟨.ok next, r₁.project⟩)
    (h : WentDown r₁ next rest [] made r') :
    WentDown r group (directory :: rest) [] (⟨.group group directory directory, next, true⟩ :: made)
      r' where
  before := .nil group
  after := .cons ((holdsGroup_of_newGroup hnew).inserts h.inserts) h.after
  inserts := (inserts_newGroup hnew).trans h.inserts
  groups := List.forall_mem_cons.mpr ⟨rfl, h.groups⟩

/-- The first group was there. -/
lemma WentDown.find {group next : ObjectId} {directory : String} {rest : List String}
    {found : List ObjectId} {made : List Inserted} {r₁ : Registrar}
    (hproject : r₁.project = r.project) (hnext : r.project.HoldsGroup group directory next)
    (h : WentDown r₁ next rest found made r') :
    WentDown r group (directory :: rest) (next :: found) made r' where
  before := .cons hnext (hproject ▸ h.before)
  after := .cons ((hproject ▸ hnext).inserts h.inserts) h.after
  inserts := hproject ▸ h.inserts
  groups := h.groups

/-- Below a group that is remembered as empty every group has to be made. -/
lemma wentDown_of_empty {group : ObjectId} {walked created named directories : List String}
    {way : Way} (hempty : r.index.lookup group = some .empty)
    (h : descend group walked created directories r = ⟨.ok (way, named), r'⟩) :
    ∃ last made, way = .toGroup last ∧ r'.index.lookup last = some .empty ∧
      named = created ++ namesBelow walked directories 0 ∧
      WentDown r group directories [] made r' := by
  induction directories generalizing group walked created r with
  | nil =>
    cases h
    exact ⟨group, [], rfl, hempty, by rw [namesBelow_nil, List.append_nil], .nil _ group⟩
  | cons directory rest ih =>
    rw [descend, childIndex_of_lookup hempty, Attempt.andThen_ok] at h
    simp only [ChildIndex.empty, List.lookup_nil] at h
    obtain ⟨next, r₁, hcreate, h⟩ := Attempt.andThen_eq_ok h
    obtain ⟨last, made, hway, hlast, hnamed, hdown⟩ := ih (lookup_of_createGroup hcreate) h
    refine ⟨last, _, hway, hlast, ?_, .make (createGroup_eq_ok hcreate) hdown⟩
    rw [hnamed, namesBelow_zero, List.append_assoc, List.singleton_append]

/-- Either the way ends in a synchronized folder and nothing is made, or it goes down to a group.  In
that case the group is remembered as empty if any group was made. -/
theorem wentDown_of_descend (hr : r.Remembers) {group : ObjectId}
    {walked created named directories : List String} {way : Way}
    (h : descend group walked created directories r = ⟨.ok (way, named), r'⟩) :
    (∃ folder, way = .intoFolder folder ∧ named = created ∧ r'.project = r.project) ∨
      ∃ last found made, way = .toGroup last ∧
        (made ≠ [] → r'.index.lookup last = some .empty) ∧
        named = created ++ namesBelow walked directories found.length ∧
        WentDown r group directories found made r' := by
  induction directories generalizing group walked created r with
  | nil =>
    cases h
    exact .inr ⟨group, [], [], rfl, absurd rfl, by rw [namesBelow_nil, List.append_nil],
      .nil _ group⟩
  | cons directory rest ih =>
    rw [descend] at h
    obtain ⟨index, r₁, hindex, h⟩ := Attempt.andThen_eq_ok h
    have hproject := (childIndex_eq_ok hindex).1
    have hlookup := lookup_of_childIndex hindex
    have hr₁ : r₁.Remembers := by
      have hkept := keeps_childIndex r group hr
      rwa [hindex] at hkept
    simp only at h
    split at h
    · next next hnext =>
      have hholds := hr₁ group index hlookup directory next hnext
      rw [hproject] at hholds
      rcases ih hr₁ h with
        ⟨folder, hway, hnamed, hsame⟩ | ⟨last, found, made, hway, hlast, hnamed, hdown⟩
      · exact .inl ⟨folder, hway, hnamed, hsame.trans hproject⟩
      · refine .inr ⟨last, next :: found, made, hway, hlast, ?_, .find hproject hholds hdown⟩
        rw [hnamed, List.length_cons, namesBelow_succ]
    · cases h
      exact .inl ⟨_, rfl, rfl, hproject⟩
    · obtain ⟨next, r₂, hcreate, h⟩ := Attempt.andThen_eq_ok h
      obtain ⟨last, made, hway, hlast, hnamed, hdown⟩ :=
        wentDown_of_empty (lookup_of_createGroup hcreate) h
      have hnew := createGroup_eq_ok hcreate
      rw [hproject] at hnew
      refine .inr ⟨last, [], _, hway, fun _ => hlast, ?_, .make hnew hdown⟩
      rw [hnamed, List.length_nil, namesBelow_zero, List.append_assoc, List.singleton_append]

/-! ## Files -/

/-- A file that is found is remembered; otherwise a file reference is made, and no more groups. -/
lemma registerFile_cases {path fileName : String} {group : ObjectId} {created : List String}
    {registration : Registration}
    (h : r.registerFile path group fileName created = ⟨.ok registration, r'⟩) :
    (registration.outcome = .existing ∧ registration.groupsCreated = created ∧
      registration.targets = [] ∧ r'.project = r.project ∧
      r.index.lookup group ≠ some .empty) ∨
    (registration.outcome = .created ∧ registration.groupsCreated = created ∧
      ∃ made, Inserts r.project made r'.project ∧ ∀ m ∈ made, m.what.kind ≠ Kind.group) := by
  unfold registerFile at h
  obtain ⟨index, r₁, hindex, h⟩ := Attempt.andThen_eq_ok h
  have hproject := (childIndex_eq_ok hindex).1
  split at h
  · next file hfile =>
    cases h
    refine .inl ⟨rfl, rfl, rfl, hproject, ?_⟩
    intro hempty
    rw [childIndex_of_lookup hempty] at hindex
    cases hindex
    cases hfile
  · obtain ⟨file, r₂, hcreate, h⟩ := Attempt.andThen_eq_ok h
    obtain ⟨names, r₃, hattach, h⟩ := Attempt.andThen_eq_ok h
    cases h
    obtain ⟨more, hmore, htallies⟩ := tallies_attachAll hattach
    have hfile := inserts_newFile (createFile_eq_ok hcreate).1
    rw [hproject] at hfile
    refine .inr ⟨rfl, rfl, _, hfile.trans hmore, ?_⟩
    refine List.forall_mem_cons.mpr ⟨?_, ?_⟩
    · show Kind.fileReference ≠ Kind.group
      decide
    · intro m hm
      simpa using List.countP_eq_zero.mp htallies.groups_eq m hm

end Registrar

namespace Project

open Registrar

/-- The ids that are new and of groups are those of the groups on record. -/
lemma Inserts.mem_groups_iff {p q : Project} {groups others : List Inserted}
    (h : Inserts p (groups ++ others) q) (hgroups : ∀ m ∈ groups, m.what.kind = Kind.group)
    (hothers : ∀ m ∈ others, m.what.kind ≠ Kind.group) (id : ObjectId) :
    id ∈ groups.map Inserted.id ↔
      p.objects.IsNew q.objects id ∧ q.objects.kind? id = some Kind.group := by
  have hkind : ∀ m ∈ groups ++ others, q.objects.kind? m.id = some m.what.kind :=
    fun m hm => (h.text?_of_mem hm "isa").trans m.what.text?_isa
  rw [h.isNew_iff]
  constructor
  · intro hid
    obtain ⟨m, hm, rfl⟩ := List.mem_map.mp hid
    have hmem := List.mem_append_left others hm
    exact ⟨List.mem_map_of_mem hmem, by rw [hkind m hmem, hgroups m hm]⟩
  · rintro ⟨hid, hgroup⟩
    obtain ⟨m, hm, rfl⟩ := List.mem_map.mp hid
    rw [hkind m hm, Option.some.injEq] at hgroup
    refine List.mem_map_of_mem ((List.mem_append.mp hm).resolve_right ?_)
    intro hother
    exact hothers m hother hgroup

/-- In the main group and below there were groups for the first directories of a path, and groups
were made for the others.  The `names` are those of the groups that were made. -/
structure GroupsAdded (p q : Project) (directories names : List String)
    (found made : List ObjectId) : Prop where
  /-- The groups that were there. -/
  before : p.Nested p.mainGroup (directories.take found.length) found
  /-- The groups that are there now. -/
  after : q.Nested p.mainGroup directories (found ++ made)
  /-- The names are the directories down to each new group. -/
  names_eq : names = (directories.inits.drop (found.length + 1)).map Path.join
  /-- Each name has a group. -/
  length_eq : made.length = names.length
  /-- The new groups are different. -/
  nodup : made.Nodup
  /-- No other group is new. -/
  mem_iff : ∀ id, id ∈ made ↔
    p.objects.IsNew q.objects id ∧ q.objects.kind? id = some Kind.group

end Project

namespace Registrar

open Project

namespace WentDown

variable {group : ObjectId} {directories : List String} {found : List ObjectId}
  {made : List Inserted} {r r' : Registrar}

lemma length_eq (h : WentDown r group directories found made r') :
    found.length + made.length = directories.length := by
  simpa using h.after.length_eq

/-- If no group was made, none is named. -/
lemma names_eq_nil (h : WentDown r group directories found [] r') (walked : List String) :
    namesBelow walked directories found.length = [] := by
  rw [← List.length_eq_zero_iff, length_namesBelow, ← h.length_eq, List.length_nil]
  omega

/-- What is made later in the new groups are not groups. -/
lemma groupsAdded (h : WentDown r r.project.mainGroup directories found made r') {q : Project}
    {others : List Inserted} (hothers : Inserts r'.project others q)
    (hkinds : ∀ m ∈ others, m.what.kind ≠ Kind.group) :
    GroupsAdded r.project q directories (namesBelow [] directories found.length) found
      (made.map Inserted.id) where
  before := h.before
  after := h.after.inserts hothers
  names_eq := rfl
  length_eq := by
    have hlength := h.length_eq
    rw [length_namesBelow, List.length_map]
    omega
  nodup := h.inserts.nodup.1
  mem_iff := (h.inserts.trans hothers).mem_groups_iff h.groups hkinds

end WentDown

end Registrar

namespace Project

open Registrar

/-- After any paths, refused or not, the registration of a path tells what it has changed.  If no
file reference was made, nothing was.  If one was made, there were groups for the directories up to
some depth, and below it a group was made for every directory. -/
theorem registration_tells_what_changed (p : Project) (earlier : List String) {path : String}
    {registration : Registration} {r' : Registrar}
    (h : (registerEach earlier (.ofProject p)).2.register path = ⟨.ok registration, r'⟩) :
    (registration.outcome ≠ .created →
      r'.project = (registerEach earlier (.ofProject p)).2.project ∧
      registration.groupsCreated = [] ∧ registration.targets = []) ∧
    (registration.outcome = .created → ∃ parts found made, Path.split path = some parts ∧
      GroupsAdded (registerEach earlier (.ofProject p)).2.project r'.project parts.directories
        registration.groupsCreated found made) := by
  have hremembers : (registerEach earlier (.ofProject p)).2.Remembers :=
    keeps_registerEach earlier (.ofProject p) (by rintro group index ⟨⟩)
  generalize (registerEach earlier (.ofProject p)).2 = r at h hremembers ⊢
  unfold Registrar.register at h
  split at h
  · cases h
    exact ⟨fun _ => ⟨rfl, rfl, rfl⟩, by rintro ⟨⟩⟩
  next parts hsplit =>
  obtain ⟨⟨way, named⟩, r₁, hdescend, h⟩ := Attempt.andThen_eq_ok h
  simp only at h
  rcases wentDown_of_descend hremembers hdescend with
    ⟨folder, rfl, rfl, hsame⟩ | ⟨last, found, groups, rfl, hempty, rfl, hdown⟩
  · cases h
    exact ⟨fun _ => ⟨hsame, rfl, rfl⟩, by rintro ⟨⟩⟩
  rcases registerFile_cases h with
    ⟨houtcome, hnames, htargets, hsame, hfull⟩ | ⟨houtcome, hnames, others, hothers, hkinds⟩
  · -- The file was found, so the group it is in is not remembered as empty and none was made.
    obtain rfl : groups = [] := by
      by_contra hmade
      exact hfull (hempty hmade)
    rw [hnames, hdown.names_eq_nil, houtcome]
    exact ⟨fun _ => ⟨hsame.trans hdown.inserts.eq_of_nil, rfl, htargets⟩, by rintro ⟨⟩⟩
  · rw [hnames]
    exact ⟨absurd houtcome, fun _ => ⟨parts, found, _, hsplit, hdown.groupsAdded hothers hkinds⟩⟩

/-- A group whose children are not in a list. -/
def barrenProject : Project :=
  sampleProject.setObject "GROUP" (.dictionary
    [("children", .string "FILE"), ("isa", .string Kind.group), ("path", .string "A")])

/-- The first path is refused when a group has been made for it, and the second one leaves a group
for the third, which gets one more. -/
theorem registration_tells_what_changed_after_refusal :
    (registerEach ["A/B/y.h", "C/x.swift"] (.ofProject barrenProject)).1.map Except.isOk =
      [false, true] ∧
    ∃ registration r', (registerEach ["A/B/y.h", "C/x.swift"]
        (.ofProject barrenProject)).2.register "C/D/z.swift" = ⟨.ok registration, r'⟩ ∧
      registration.groupsCreated = ["C/D"] ∧
      ∃ group made, r'.project.Nested "MAIN" ["C", "D"] [group, made] ∧
        (registerEach ["A/B/y.h", "C/x.swift"] (.ofProject barrenProject)).2.project.Nested
          "MAIN" ["C"] [group] ∧
        r'.project.objects.kind? made = some Kind.group := by
  have hearlier : (registerEach ["A/B/y.h", "C/x.swift"]
      (.ofProject barrenProject)).1.map Except.isOk = [false, true] := by decide +kernel
  have hresult : ((registerEach ["A/B/y.h", "C/x.swift"]
      (.ofProject barrenProject)).2.register "C/D/z.swift").result.toOption.map
      (fun registration => (registration.outcome, registration.groupsCreated)) =
        some (.created, ["C/D"]) := by decide +kernel
  obtain ⟨registration, hregistration, hpair⟩ := Option.map_eq_some_iff.mp hresult
  obtain ⟨houtcome, hnames⟩ := Prod.mk.inj hpair
  have hregister := Attempt.eq_of_result_eq_ok (Attempt.result_eq_ok hregistration)
  obtain ⟨parts, found, made, hsplit, hbefore, hafter, -, hlength, -, hnew⟩ :=
    (registration_tells_what_changed _ _ hregister).2 houtcome
  have hmain : (registerEach ["A/B/y.h", "C/x.swift"]
      (.ofProject barrenProject)).2.project.mainGroup = "MAIN" := by decide +kernel
  rw [hmain] at hbefore hafter
  have hparts : Path.split "C/D/z.swift" = some ⟨["C", "D"], "z.swift"⟩ := by decide
  obtain rfl := Option.some.inj (hsplit.symm.trans hparts)
  rw [hnames] at hlength
  obtain ⟨last, rfl⟩ := List.length_eq_one_iff.mp hlength
  have hfound : found.length + 1 = 2 := by simpa using hafter.length_eq
  obtain ⟨group, rfl⟩ := List.length_eq_one_iff.mp (Nat.succ.inj hfound)
  exact ⟨hearlier, registration, _, hregister, hnames, group, last, hafter, hbefore,
    ((hnew last).mp List.mem_cons_self).2⟩

end Project

end XcodeProject
