import Mathlib
import XcodeProject.Proofs.Registration.PlanFollowed

/-!
# The order of paths is the order of lists

A registrar makes what the plans of its paths call for and nothing else (`planned_register`).  The
plans are those of the project at the beginning, so the same paths in another order lead to the same
insertions in another order.

What insertions lead to depends on their order in one way.  An object has what it had or was made
with, and at the end of each list the ids of what was inserted there, in the order of the record
(`Inserts.grownBy_old`, `Inserts.grownBy_new`).  So the same insertions in another order give a
project that is the same up to the order of the ids at the end of lists (`SameUpToOrder`).
-/

namespace XcodeProject

open PropertyList (Value)

/-! ## Growing by given lists -/

/-- Ids have gone to the end of lists of an object, as `lists` has them by key, and nothing else is
different. -/
def Object.GrownBy (lists : String → List ObjectId) (object object' : Object) : Prop :=
  ∀ key, (lists key = [] ∧ object'.lookup key = object.lookup key) ∨
    lists key ≠ [] ∧ ∃ items, (object.lookup key).getD (.array []) = .array items ∧
      object'.lookup key = some (.array (items ++ (lists key).map Value.string))

namespace Object.GrownBy

variable {lists more : String → List ObjectId} {object object' object'' : Object}

lemma refl (object : Object) (hlists : ∀ key, lists key = []) : GrownBy lists object object :=
  fun key => .inl ⟨hlists key, rfl⟩

lemma trans (h : GrownBy lists object object') (h' : GrownBy more object' object'') :
    GrownBy (fun key => lists key ++ more key) object object'' := by
  intro key
  beta_reduce
  rcases h key with ⟨hnil, hsame⟩ | ⟨hlists, items, hitems, hlookup⟩
  · rcases h' key with ⟨hnil', hsame'⟩ | ⟨hmore, items', hitems', hlookup'⟩
    · exact .inl ⟨by simp [hnil, hnil'], hsame'.trans hsame⟩
    · rw [hsame] at hitems'
      exact .inr ⟨by simp [hmore], items', hitems', by rw [hlookup', hnil, List.nil_append]⟩
  · refine .inr ⟨by simp [hlists], items, hitems, ?_⟩
    rcases h' key with ⟨hnil', hsame'⟩ | ⟨hmore, items', hitems', hlookup'⟩
    · rw [hsame', hlookup, hnil', List.append_nil]
    · rw [hlookup, Option.getD_some] at hitems'
      cases hitems'
      rw [hlookup', List.map_append, List.append_assoc]

end Object.GrownBy

namespace Project

/-- What an insertion does to an object that is there. -/
lemma grownBy_insert {p : Project} {i : Insertion} {owner : Object}
    (howner : p.object? i.owner = some owner) {id : ObjectId} {object : Object}
    (hobject : p.object? id = some object) :
    ∃ object', (p.insert i).state.object? id = some object' ∧ object.GrownBy
      (listedBy [⟨i, ObjectId.fresh p.objects i.seed, (p.insert i).result.isOk⟩] id) object' := by
  have hfresh := ObjectId.contains_fresh p.objects i.seed
  have hne := Dict.ne_of_contains (contains_of_object? hobject) hfresh
  rcases insert_cases howner with ⟨items, hitems, hinsert⟩ | ⟨e, hinsert⟩
  · rw [hinsert, object?_setObject, object?_setObject, if_neg hne]
    by_cases hid : id = i.owner
    · subst hid
      obtain rfl := Option.some.inj (hobject.symm.trans howner)
      refine ⟨_, if_pos rfl, fun key => ?_⟩
      rw [Dict.lookup_insert]
      by_cases hkey : key = i.key
      · subst hkey
        right
        simp [listedBy, hitems, Except.isOk, Except.toBool]
      · left
        simp [listedBy, hkey, Ne.symm hkey]
    · rw [if_neg hid]
      refine ⟨object, hobject, .refl object fun key => ?_⟩
      simp [listedBy, Ne.symm hid]
  · rw [hinsert, object?_setObject, if_neg hne]
    refine ⟨object, hobject, .refl object fun key => ?_⟩
    simp [listedBy, Except.isOk, Except.toBool]

namespace Inserts

variable {p q : Project} {made : List Inserted}

/-- An object that was there has what was listed with it, in the order of the record. -/
theorem grownBy_old (h : Inserts p made q) {id : ObjectId} {object : Object}
    (hobject : p.object? id = some object) :
    ∃ object', q.object? id = some object' ∧ object.GrownBy (listedBy made id) object' := by
  induction h with
  | none => exact ⟨object, hobject, .refl object fun _ => rfl⟩
  | next _ _ howner ih =>
    obtain ⟨middle, hmiddle, hgrown⟩ := ih
    obtain ⟨object', hobject', hgrown'⟩ := grownBy_insert howner hmiddle
    refine ⟨object', hobject', ?_⟩
    simpa only [← listedBy_append] using hgrown.trans hgrown'

/-- A new object has what was listed with it, in the order of the record. -/
theorem grownBy_new (h : Inserts p made q) {m : Inserted} (hm : m ∈ made) :
    ∃ object', q.object? m.id = some object' ∧
      m.what.object.GrownBy (listedBy made m.id) object' := by
  induction h with
  | none => cases hm
  | @next made q i owner before hproper howner ih =>
    rcases List.mem_append.mp hm with hm | hm
    · obtain ⟨middle, hmiddle, hgrown⟩ := ih hm
      obtain ⟨object', hobject', hgrown'⟩ := grownBy_insert howner hmiddle
      refine ⟨object', hobject', ?_⟩
      simpa only [← listedBy_append] using hgrown.trans hgrown'
    · obtain rfl := List.mem_singleton.mp hm
      have hobject := object?_insert_fresh howner
      refine ⟨_, hobject, .refl _ fun key => ?_⟩
      -- Nothing is in the lists of an object that has just been made.
      have hids := (before.next hproper howner).ids_eq (ObjectId.fresh q.objects i.seed) key
      rw [ids_of_object? hobject, hproper.newObject.ids_eq_nil] at hids
      exact (List.append_eq_nil_iff.mp hids.symm).2

/-- What is not an object stays what it was. -/
lemma lookup_eq (h : Inserts p made q) {id : ObjectId} (hid : id ∉ made.map Inserted.id)
    (hnone : p.object? id = .none) : q.objects.lookup id = p.objects.lookup id := by
  cases hlookup : p.objects.lookup id with
  | none =>
    refine Dict.lookup_of_contains_eq_false (Bool.eq_false_iff.mpr fun hcontains => ?_)
    refine hid (((h.contains_iff id).mp hcontains).resolve_left ?_)
    simp [Dict.contains, hlookup]
  | some value =>
    obtain ⟨value', hlookup', hgrown⟩ := h.additions.extends.old id value hlookup
    cases value with
    | string text => exact hgrown ▸ hlookup'
    | array items => exact hgrown ▸ hlookup'
    | dictionary object =>
      have hobject : p.object? id = some object := ObjectTable.object?_eq_some.mpr hlookup
      rw [hnone] at hobject
      cases hobject

end Inserts

end Project

/-! ## The same up to order -/

/-- The objects are the same, except that ids which have gone to the end of a list in one of them
have gone there in another order in the other.  `old?` is what there was before under each key. -/
def Object.SameUpToOrder (old? : String → Option Value) (object object' : Object) : Prop :=
  ∀ key, object'.lookup key = object.lookup key ∨
    key ∈ listFields ∧ ∃ (items : List Value) (ids ids' : List ObjectId),
      (old? key).getD (.array []) = .array items ∧ ids.Perm ids' ∧
      object.lookup key = some (.array (items ++ ids.map Value.string)) ∧
      object'.lookup key = some (.array (items ++ ids'.map Value.string))

/-- The lists of an object have grown by the same ids in both cases. -/
lemma Object.GrownBy.sameUpToOrder {lists lists' : String → List ObjectId}
    {object first second : Object} (h : object.GrownBy lists first)
    (h' : object.GrownBy lists' second) (hperm : ∀ key, (lists key).Perm (lists' key))
    (hfields : ∀ key, lists key ≠ [] → key ∈ listFields) {old? : String → Option Value}
    (hold : ∀ key items, (object.lookup key).getD (.array []) = .array items →
      (old? key).getD (.array []) = .array items) :
    Object.SameUpToOrder old? first second := by
  intro key
  have hkey := hperm key
  rcases h key with ⟨hnil, hsame⟩ | ⟨hlists, items, hitems, hlookup⟩
  · rcases h' key with ⟨-, hsame'⟩ | ⟨hlists', -⟩
    · exact .inl (hsame'.trans hsame.symm)
    · rw [hnil] at hkey
      exact absurd hkey.nil_eq.symm hlists'
  · rcases h' key with ⟨hnil', -⟩ | ⟨-, items', hitems', hlookup'⟩
    · rw [hnil'] at hkey
      exact absurd hkey.eq_nil hlists
    · obtain rfl : items = items' := Value.array.inj (hitems.symm.trans hitems')
      exact .inr ⟨hfields key hlists, items, _, _, hold key items hitems, hkey, hlookup, hlookup'⟩

namespace Project

/-- Two projects that have grown from `p` are the same, except that ids which have gone to the end of
lists may be there in another order. -/
structure SameUpToOrder (p q q' : Project) : Prop where
  /-- The parts of the projects other than the tables are the same. -/
  rest_eq : q' = { q with objects := q'.objects }
  /-- The ids are the same. -/
  contains_eq : ∀ id, Dict.contains q'.objects id = Dict.contains q.objects id
  /-- An entry that is not an object is the same. -/
  lookup_eq : ∀ id, q.object? id = none → q'.objects.lookup id = q.objects.lookup id
  /-- An object is the same up to order. -/
  object : ∀ id object, q.object? id = some object → ∃ object', q'.object? id = some object' ∧
    Object.SameUpToOrder (fun key => (p.object? id).bind (List.lookup key)) object object'

lemma key_mem_of_listedBy {made : List Inserted} {owner : ObjectId} {key : String}
    (h : listedBy made owner key ≠ []) : key ∈ listFields := by
  obtain ⟨id, hid⟩ := List.exists_mem_of_ne_nil _ h
  obtain ⟨m, hm, -⟩ := List.mem_map.mp hid
  have hkey := (of_decide_eq_true (List.mem_filter.mp hm).2).2.2
  exact hkey ▸ m.what.key_mem_listFields

/-- The same insertions in another order give the same up to order. -/
theorem sameUpToOrder_of_perm {p q q' : Project} {made made' : List Inserted}
    (h : Inserts p made q) (h' : Inserts p made' q') (hperm : made.Perm made') :
    SameUpToOrder p q q' := by
  have hids : ∀ id, id ∈ made'.map Inserted.id ↔ id ∈ made.map Inserted.id :=
    fun id => (hperm.map Inserted.id).symm.mem_iff
  have hlists : ∀ id key, (listedBy made id key).Perm (listedBy made' id key) :=
    fun id key => (hperm.filter _).map _
  constructor
  · rw [h'.edits.frame, h.edits.frame]
  · intro id
    rw [Bool.eq_iff_iff, h.contains_iff, h'.contains_iff, hids]
  · intro id hnone
    have hid : id ∉ made.map Inserted.id := by
      intro hmade
      obtain ⟨m, hm, rfl⟩ := List.mem_map.mp hmade
      obtain ⟨object, hobject, -⟩ := h.grownBy_new hm
      rw [hnone] at hobject
      cases hobject
    cases hold : p.object? id with
    | none => rw [h.lookup_eq hid hold, h'.lookup_eq (mt (hids id).mp hid) hold]
    | some old =>
      obtain ⟨object, hobject, -⟩ := h.grownBy_old hold
      rw [hnone] at hobject
      cases hobject
  · intro id object hobject
    by_cases hid : id ∈ made.map Inserted.id
    · obtain ⟨m, hm, rfl⟩ := List.mem_map.mp hid
      obtain ⟨first, hfirst, hgrown⟩ := h.grownBy_new hm
      obtain ⟨second, hsecond, hgrown'⟩ := h'.grownBy_new (hperm.mem_iff.mp hm)
      obtain rfl := Option.some.inj (hobject.symm.trans hfirst)
      have hnone : p.object? m.id = none := object?_of_contains_eq_false (h.nodup.2 m hm)
      refine ⟨second, hsecond, hgrown.sameUpToOrder hgrown' (hlists m.id)
        (fun _ => key_mem_of_listedBy) ?_⟩
      intro key items hitems
      rw [hnone, (h.proper hm).newObject.items_eq_nil hitems]
      rfl
    · cases hold : p.object? id with
      | none =>
        have hlookup := ObjectTable.object?_eq_some.mp hobject
        rw [h.lookup_eq hid hold] at hlookup
        have hobject : p.object? id = some object := ObjectTable.object?_eq_some.mpr hlookup
        rw [hold] at hobject
        cases hobject
      | some old =>
        obtain ⟨first, hfirst, hgrown⟩ := h.grownBy_old hold
        obtain ⟨second, hsecond, hgrown'⟩ := h'.grownBy_old hold
        obtain rfl := Option.some.inj (hobject.symm.trans hfirst)
        exact ⟨second, hsecond, hgrown.sameUpToOrder hgrown' (hlists id)
          (fun _ => key_mem_of_listedBy) fun _ _ hitems => hitems⟩

/-! ## Paths in any order -/

/-- What a run makes is what the plans of its paths call for. -/
theorem planned_register {p : Project} {paths : List String} {report : Report}
    (h : (p.register paths).result = .ok report)
    (hapart : p.Apart (newSeeds p (p.register paths).state)) :
    ∃ made, OnWay p (p.register paths).state made (p.register paths).state ∧
      ∀ i, i ∈ made.map Inserted.what ↔ i ∈ paths.flatMap p.plan := by
  obtain ⟨r, hrun, hstate⟩ := registerAll_of_register h
  have hlater := develops_register p paths
  generalize (p.register paths).state = last at hapart hstate hlater ⊢
  subst hstate
  have hstart : (Registrar.ofProject p).Tracks p r.project [] :=
    ⟨⟨.none, hlater, nofun, nofun, nofun⟩, rfl, nofun⟩
  obtain ⟨made, htracks, hfulfils⟩ := hstart.registerAll hapart nofun hrun (.refl r.project)
  refine ⟨made, htracks.onWay, fun i => ?_⟩
  have hiff := hfulfils.mem_iff i
  simpa using hiff

/-- If all ids are those of first attempts, a record is made up of its insertions, none of which is
there twice. -/
lemma OnWay.record {p last q : Project} {made : List Inserted} (h : OnWay p last made q) :
    (made.map Inserted.what).Nodup ∧
      made = (made.map Inserted.what).map fun i => ⟨i, i.firstId, true⟩ := by
  constructor
  · have hids : made.map Inserted.id = (made.map Inserted.what).map Insertion.firstId := by
      rw [List.map_map]
      exact List.map_congr_left h.id_eq
    exact List.Nodup.of_map _ (hids ▸ h.inserts.nodup.1)
  · rw [List.map_map]
    refine (List.map_id made).symm.trans (List.map_congr_left fun m hm => ?_)
    rw [Function.comp_apply, ← h.id_eq m hm, ← h.linked m hm]
    rfl

lemma OnWay.perm {p last last' q q' : Project} {made made' : List Inserted}
    (h : OnWay p last made q) (h' : OnWay p last' made' q')
    (hwhat : ∀ i, i ∈ made.map Inserted.what ↔ i ∈ made'.map Inserted.what) :
    made.Perm made' := by
  obtain ⟨hnodup, hmade⟩ := h.record
  obtain ⟨hnodup', hmade'⟩ := h'.record
  rw [hmade, hmade']
  exact ((List.perm_ext_iff_of_nodup hnodup hnodup').mpr hwhat).map _

/-- Registering the same paths in another order gives the same project up to the order of lists,
provided that the ids of new objects are different from each other and strange to the project. -/
theorem order_of_paths_orders_lists_only {p : Project} {paths paths' : List String}
    (hperm : paths.Perm paths') {report report' : Report}
    (hreport : (p.register paths).result = .ok report)
    (hreport' : (p.register paths').result = .ok report')
    (hapart : p.Apart (newSeeds p (p.register paths).state))
    (hapart' : p.Apart (newSeeds p (p.register paths').state)) :
    SameUpToOrder p (p.register paths).state (p.register paths').state := by
  obtain ⟨made, hway, hplan⟩ := planned_register hreport hapart
  obtain ⟨made', hway', hplan'⟩ := planned_register hreport' hapart'
  refine sameUpToOrder_of_perm hway.inserts hway'.inserts (hway.perm hway' fun i => ?_)
  rw [hplan, hplan']
  exact (hperm.flatMap_right p.plan).mem_iff

/-- Headers, one of them in a group that is not there. -/
def headerPaths : List String :=
  ["B/x.h", "y.h"]

theorem order_of_paths_orders_lists_only_headers :
    headerPaths.Perm headerPaths.reverse ∧
    (∃ report, (sharingProject.register headerPaths).result = .ok report) ∧
    (∃ report, (sharingProject.register headerPaths.reverse).result = .ok report) ∧
    sharingProject.Apart (newSeeds sharingProject (sharingProject.register headerPaths).state) ∧
    sharingProject.Apart
      (newSeeds sharingProject (sharingProject.register headerPaths.reverse).state) ∧
    (sharingProject.register headerPaths).state ≠
      (sharingProject.register headerPaths.reverse).state ∧
    SameUpToOrder sharingProject (sharingProject.register headerPaths).state
      (sharingProject.register headerPaths.reverse).state := by
  have hperm : headerPaths.Perm headerPaths.reverse := (List.reverse_perm _).symm
  obtain ⟨hsome, hsome', hapart, hapart', hne⟩ :
      ((sharingProject.register headerPaths).result.toOption.isSome = true ∧
      (sharingProject.register headerPaths.reverse).result.toOption.isSome = true ∧
      sharingProject.Apart (newSeeds sharingProject (sharingProject.register headerPaths).state) ∧
      sharingProject.Apart
        (newSeeds sharingProject (sharingProject.register headerPaths.reverse).state) ∧
      (sharingProject.register headerPaths).state ≠
        (sharingProject.register headerPaths.reverse).state) := by decide +kernel
  obtain ⟨report, hresult⟩ := Option.isSome_iff_exists.mp hsome
  obtain ⟨report', hresult'⟩ := Option.isSome_iff_exists.mp hsome'
  have hreport := Attempt.result_eq_ok hresult
  have hreport' := Attempt.result_eq_ok hresult'
  exact ⟨hperm, ⟨report, hreport⟩, ⟨report', hreport'⟩, hapart, hapart', hne,
    order_of_paths_orders_lists_only hperm hreport hreport' hapart hapart'⟩

end Project

end XcodeProject
