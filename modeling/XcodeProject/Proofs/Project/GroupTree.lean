import Mathlib
import XcodeProject.Proofs.Project.Additions

/-!
# What edits do to the group tree

The children of a group are the objects under the ids that it lists, and ids without an object are
left out.  If an id without an object could come to have one, a group would get a child without
having been edited.  `ChildrenListed` excludes that: every id that a group lists is in the table, so
it is never given to a new object.

Under this condition an edit does one of two things to the children of groups.  Attaching a file,
and adding a child where that is refused, leave the children of every group as they were
(`TreeKept`).  Adding a child puts one node at the end of the children of one group (`ChildAdded`).
-/

namespace XcodeProject.Project

open PropertyList (Value)

/-- Every id that a group lists as a child is in the object table. -/
def ChildrenListed (p : Project) : Prop :=
  ∀ id object, p.object? id = some object → object.kind ∈ Kind.groups →
    ∀ child ∈ object.ids "children", Dict.contains p.objects child = true

instance (p : Project) : Decidable p.ChildrenListed :=
  decidable_of_iff' _ (p.forall_object?_iff fun _ object => object.kind ∈ Kind.groups →
    ∀ child ∈ object.ids "children", Dict.contains p.objects child = true)

/-! ## Children -/

/-- The object under an id as a child of a group. -/
def node? (p : Project) (id : ObjectId) : Option Node :=
  (p.object? id).map (Node.ofObject id)

lemma ofObject_eq {fields : List String} {object object' : Object}
    (h : Object.AgreesOutside fields object object') (id : ObjectId) :
    Node.ofObject id object' = Node.ofObject id object := by
  simp only [Node.ofObject, h.kind_eq, h.text]

lemma children_eq_ok {p : Project} {id : ObjectId} {nodes : List Node} :
    p.children id = .ok nodes ↔ ∃ object, p.object? id = some object ∧
      object.kind ∈ Kind.groups ∧ (object.ids "children").filterMap p.node? = nodes := by
  unfold children
  constructor
  · intro h
    cases hgroup : p.group id with
    | error e =>
      rw [hgroup] at h
      cases h
    | ok object =>
      rw [hgroup] at h
      cases h
      obtain ⟨hobject, hkind⟩ := group_eq_ok.mp hgroup
      exact ⟨object, hobject, hkind, rfl⟩
  · rintro ⟨object, hobject, hkind, rfl⟩
    rw [group_eq_ok.mpr ⟨hobject, hkind⟩]
    rfl

/-! ## One change -/

namespace Change

variable {fields : List String} {p p' : Project}

lemma node?_eq (h : Change fields p p') {id : ObjectId}
    (hid : Dict.contains p.objects id = true) : p'.node? id = p.node? id := by
  have hrel := h.rel_object? hid
  unfold node?
  generalize p.object? id = before, p'.object? id = after at hrel
  cases hrel with
  | none => rfl
  | some hagrees => simp only [Option.map_some, ofObject_eq hagrees]

lemma filterMap_node? (h : Change fields p p') {ids : List ObjectId}
    (hids : ∀ id ∈ ids, Dict.contains p.objects id = true) :
    ids.filterMap p'.node? = ids.filterMap p.node? := by
  refine List.filterMap_congr ?_
  intro id hid
  exact h.node?_eq (hids id hid)

theorem childrenListed (h : Change fields p p') (hp : p.ChildrenListed) :
    p'.ChildrenListed := by
  intro id object' hobject' hkind child hchild
  apply h.contains
  rcases h.old_or_new hobject' with ⟨object, hobject, hagrees⟩ | ⟨-, hnew⟩
  · rcases h.mem_ids hobject hobject' hchild with hold | hlisted
    · exact hp id object hobject (hagrees.kind_eq ▸ hkind) child hold
    · exact hlisted
  · rw [hnew.ids_eq_nil] at hchild
    cases hchild

/-- Unless a list of children grows, all groups keep their children. -/
lemma children_eq (h : Change fields p p') (hfields : "children" ∉ fields)
    (hp : p.ChildrenListed) {id : ObjectId} {nodes : List Node}
    (hchildren : p.children id = .ok nodes) : p'.children id = .ok nodes := by
  obtain ⟨object, hobject, hkind, rfl⟩ := children_eq_ok.mp hchildren
  obtain ⟨object', hobject', hagrees⟩ := h.exists_object? hobject
  refine children_eq_ok.mpr ⟨object', hobject', hagrees.kind_eq ▸ hkind, ?_⟩
  rw [hagrees.ids _ hfields]
  exact h.filterMap_node? (hp id object hobject hkind)

/-- No object becomes a target. -/
lemma target?_eq (h : Change fields p p') (id : ObjectId) : p'.target? id = p.target? id := by
  have hnewKinds : ∀ kind ∈ newKinds, kind ∉ Kind.targets := by decide
  unfold target?
  cases hobject : p.object? id with
  | some object =>
    obtain ⟨object', hobject', hagrees⟩ := h.exists_object? hobject
    simp only [hobject', hagrees.kind_eq, hagrees.text]
  | none =>
    cases hobject' : p'.object? id with
    | none => rfl
    | some object' =>
      rcases h.old_or_new hobject' with ⟨object, hold, -⟩ | ⟨-, hnew⟩
      · rw [hobject] at hold
        cases hold
      · simp only [if_neg (hnewKinds _ hnew.kind_mem)]

lemma targets_eq (h : Change fields p p') (hfields : "targets" ∉ fields) :
    p'.targets = p.targets := by
  have hroot : p'.rootObject = p.rootObject := by rw [h.frame]
  have htarget : p'.target? = p.target? := funext h.target?_eq
  rw [targets, targets, hroot, h.ids_eq hfields, htarget]

end Change

lemma Edits.targets_eq {fields : List String} {p p' : Project} (h : Edits fields p p')
    (hfields : "targets" ∉ fields) : p'.targets = p.targets := by
  induction h with
  | refl => rfl
  | tail _ hchange ih => exact (hchange.targets_eq hfields).trans ih

/-! ## Edits that leave the tree alone -/

/-- The groups have the children they had, and the targets are those there were. -/
structure TreeKept (p p' : Project) : Prop where
  /-- The ids that groups list are in the table. -/
  listed : p'.ChildrenListed
  /-- The tree hangs from the same group. -/
  mainGroup_eq : p'.mainGroup = p.mainGroup
  /-- The targets are the same. -/
  targets_eq : p'.targets = p.targets
  /-- The children are the same. -/
  children_eq : ∀ id nodes, p.children id = .ok nodes → p'.children id = .ok nodes

lemma TreeKept.refl {p : Project} (hp : p.ChildrenListed) : TreeKept p p :=
  ⟨hp, rfl, rfl, fun _ _ h => h⟩

lemma TreeKept.trans {p p' p'' : Project} (h : TreeKept p p') (h' : TreeKept p' p'') :
    TreeKept p p'' := by
  refine ⟨h'.listed, h'.mainGroup_eq.trans h.mainGroup_eq, h'.targets_eq.trans h.targets_eq, ?_⟩
  intro id nodes hchildren
  exact h'.children_eq id nodes (h.children_eq id nodes hchildren)

lemma Change.treeKept {fields : List String} {p p' : Project} (h : Change fields p p')
    (hchildren : "children" ∉ fields) (htargets : "targets" ∉ fields) (hp : p.ChildrenListed) :
    TreeKept p p' where
  listed := h.childrenListed hp
  mainGroup_eq := by rw [h.frame]
  targets_eq := h.targets_eq htargets
  children_eq _ _ := h.children_eq hchildren hp

lemma Edits.treeKept {fields : List String} {p p' : Project} (h : Edits fields p p')
    (hchildren : "children" ∉ fields) (htargets : "targets" ∉ fields) (hp : p.ChildrenListed) :
    TreeKept p p' := by
  induction h with
  | refl => exact .refl hp
  | tail _ hchange ih => exact ih.trans (hchange.treeKept hchildren htargets ih.listed)

/-- Attaching a file leaves the group tree alone, whatever comes of it. -/
theorem treeKept_attach {p : Project} (hp : p.ChildrenListed) (target : Target)
    (file : ObjectId) : TreeKept p (p.attach target file).state := by
  have hedits : Edits ["buildPhases", "files"] p (p.attach target file).state :=
    edits_attach (by decide) (by decide) p target file
  exact hedits.treeKept (by decide) (by decide) hp

/-! ## Adding a child -/

/-- A node is at the end of the children of `parent`; nothing else in the tree is different. -/
structure ChildAdded (p : Project) (parent : ObjectId) (node : Node) (p' : Project) : Prop where
  /-- The ids that groups list are in the table. -/
  listed : p'.ChildrenListed
  /-- The tree hangs from the same group. -/
  mainGroup_eq : p'.mainGroup = p.mainGroup
  /-- The targets are the same. -/
  targets_eq : p'.targets = p.targets
  /-- The id of the node was not in use. -/
  fresh : Dict.contains p.objects node.id = false
  /-- The parent has one more child. -/
  children_parent : ∀ nodes, p.children parent = .ok nodes →
    p'.children parent = .ok (nodes ++ [node])
  /-- The other groups have the children they had. -/
  children_other : ∀ id nodes, id ≠ parent → p.children id = .ok nodes →
    p'.children id = .ok nodes
  /-- A new group is empty. -/
  children_node : node.kind = .group → p'.children node.id = .ok []

lemma ofKind_eq_group {kind : String} : NodeKind.ofKind kind = .group ↔ kind ∈ Kind.groups := by
  unfold NodeKind.ofKind
  constructor
  · intro h
    by_contra hkind
    rw [if_neg hkind] at h
    split at h
    · cases h
    · split at h <;> cases h
  · intro h
    rw [if_pos h]

section AppendId

variable {p p' : Project} {parent id : ObjectId}

lemma change_appendId (h : p.appendId parent "children" id = .ok p')
    (hid : Dict.contains p.objects id = true) : Change ["children"] p p' := by
  obtain ⟨grown, items, howner, hitems, rfl⟩ := appendId_eq_ok h
  exact .append (by decide) howner hitems hid

lemma children_appendId (hp : p.ChildrenListed) (h : p.appendId parent "children" id = .ok p')
    {object : Object} (hid : p.object? id = some object) {nodes : List Node}
    (hchildren : p.children parent = .ok nodes) :
    p'.children parent = .ok (nodes ++ [Node.ofObject id object]) := by
  have hchange := change_appendId h (contains_of_object? hid)
  obtain ⟨grown, hgrown, hkind, rfl⟩ := children_eq_ok.mp hchildren
  obtain ⟨owned, items, howner, hitems, rfl⟩ := appendId_eq_ok h
  rw [hgrown] at howner
  cases howner
  have hparent := object?_setObject p parent parent
    (Dict.insert grown "children" (.array (items ++ [.string id])))
  rw [if_pos rfl] at hparent
  refine children_eq_ok.mpr ⟨_, hparent, ?_, ?_⟩
  · rw [Object.kind, Object.text?_insert_array hitems]
    exact hkind
  · -- The old children are the nodes they were, and the new one is the object under `id`.
    have hnode := hchange.node?_eq (contains_of_object? hid)
    rw [Object.ids_insert_append hitems, List.filterMap_append,
      hchange.filterMap_node? (hp parent grown hgrown hkind), List.filterMap_cons, hnode, node?,
      hid]
    rfl

lemma children_appendId_of_ne (hp : p.ChildrenListed)
    (h : p.appendId parent "children" id = .ok p') (hid : Dict.contains p.objects id = true)
    {other : ObjectId} (hother : other ≠ parent) {nodes : List Node}
    (hchildren : p.children other = .ok nodes) : p'.children other = .ok nodes := by
  have hchange := change_appendId h hid
  obtain ⟨object, hobject, hkind, rfl⟩ := children_eq_ok.mp hchildren
  obtain ⟨owned, items, howner, hitems, rfl⟩ := appendId_eq_ok h
  refine children_eq_ok.mpr ⟨object, ?_, hkind, ?_⟩
  · rw [object?_setObject, if_neg hother, hobject]
  · exact hchange.filterMap_node? (hp other object hobject hkind)

end AppendId

section AddChild

variable {p p' : Project} {parent : ObjectId} {kind path : String} {object : Object}

/-- A child that is refused leaves the tree alone, though its object may be in the table. -/
theorem treeKept_of_addChild {e : EditError} (hp : p.ChildrenListed) (hnew : NewObject object)
    (h : p.addChild parent kind path object = ⟨.error e, p'⟩) : TreeKept p p' := by
  unfold addChild at h
  split at h
  · cases h
    exact .refl hp
  · unfold addOwned at h
    simp only at h
    split at h
    · cases h
    · cases h
      have hadd : Change [] p (p.setObject (ObjectId.fresh p.objects [kind, parent, path])
          (.dictionary object)) := .add (ObjectId.contains_fresh _ _) hnew
      exact hadd.treeKept (by decide) (by decide) hp

theorem childAdded_of_addChild {id : ObjectId} (hp : p.ChildrenListed) (hnew : NewObject object)
    (h : p.addChild parent kind path object = ⟨.ok id, p'⟩) :
    ChildAdded p parent (Node.ofObject id object) p' := by
  unfold addChild at h
  split at h
  · cases h
  next grown hgroup =>
  unfold addOwned at h
  simp only at h
  split at h
  · next appended happend =>
    have hfresh := ObjectId.contains_fresh p.objects [kind, parent, path]
    obtain ⟨rfl, rfl⟩ : ObjectId.fresh p.objects [kind, parent, path] = id ∧ appended = p' := by
      cases h
      exact ⟨rfl, rfl⟩
    generalize ObjectId.fresh p.objects [kind, parent, path] = id at happend hfresh ⊢
    -- First the object goes into the table, which changes no group; then the parent lists it.
    have hadd : Change [] p (p.setObject id (.dictionary object)) := .add hfresh hnew
    have hkept := hadd.treeKept (by decide) (by decide) hp
    have hid := object?_setObject p id id object
    rw [if_pos rfl] at hid
    have hchange := change_appendId happend (contains_of_object? hid)
    have hparent : Dict.contains p.objects parent = true :=
      contains_of_object? (group_eq_ok.mp hgroup).1
    have hne := (Dict.ne_of_contains hparent hfresh).symm
    refine ⟨hchange.childrenListed hkept.listed, ?_, ?_, hfresh, ?_, ?_, ?_⟩
    · rw [hchange.frame, hadd.frame]
    · exact (hchange.targets_eq (by decide)).trans hkept.targets_eq
    · intro nodes hnodes
      exact children_appendId hkept.listed happend hid (hkept.children_eq parent nodes hnodes)
    · intro other nodes hother hnodes
      exact children_appendId_of_ne hkept.listed happend (contains_of_object? hid) hother
        (hkept.children_eq other nodes hnodes)
    · intro hkind
      refine children_appendId_of_ne hkept.listed happend (contains_of_object? hid) hne ?_
      refine children_eq_ok.mpr ⟨object, hid, ofKind_eq_group.mp hkind, ?_⟩
      rw [hnew.ids_eq_nil]
      rfl
  · cases h

end AddChild

section NewGroupAndNewFile

variable {p p' : Project} {parent id : ObjectId} {name path : String} {e : EditError}

lemma treeKept_of_newGroup (hp : p.ChildrenListed)
    (h : p.newGroup parent name path = ⟨.error e, p'⟩) : TreeKept p p' :=
  treeKept_of_addChild hp (.group name path) h

lemma treeKept_of_newFile (hp : p.ChildrenListed)
    (h : p.newFile parent path = ⟨.error e, p'⟩) : TreeKept p p' :=
  treeKept_of_addChild hp (.file path) h

lemma childAdded_of_newGroup (hp : p.ChildrenListed)
    (h : p.newGroup parent name path = ⟨.ok id, p'⟩) :
    ChildAdded p parent ⟨id, .group, some name, some path⟩ p' :=
  childAdded_of_addChild hp (.group name path) h

lemma childAdded_of_newFile (hp : p.ChildrenListed)
    (h : p.newFile parent path = ⟨.ok id, p'⟩) :
    ChildAdded p parent ⟨id, .file, none, some path⟩ p' :=
  childAdded_of_addChild hp (.file path) h

end NewGroupAndNewFile

end XcodeProject.Project
