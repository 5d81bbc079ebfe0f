import Mathlib
import XcodeProject.Proofs.Project.Insertions
import XcodeProject.Proofs.Registration.Operations

/-!
# Every new object has one owner

The lists of all objects taken together are the `listings` of a table.  An insertion puts its id
there once, if the owner lists it, and otherwise leaves the listings as they are
(`Inserts.listings_perm`).  So after any operations the listings are the ones before and the ids of
the insertions that were linked.

If the table has every id that it lists (`ReferencesClosed`), no list can hold the id of a new
object before that object is there.  Then the id is listed once or not at all, which is for its
owner to say, and the table has every id that it lists again.
-/

namespace XcodeProject

open PropertyList (Value)

/-! ## Listings -/

namespace ObjectTable

/-- The ids in the lists of an entry of the table. -/
def listedIn : Value → List ObjectId
  | .dictionary object => listFields.flatMap (Object.ids object)
  | _ => []

/-- The ids in the lists of all objects, each as often as it is listed. -/
def listings (table : ObjectTable) : List ObjectId :=
  table.flatMap fun entry => listedIn entry.2

lemma mem_listings_of_ids {table : ObjectTable} {owner id : ObjectId} {key : String}
    (hkey : key ∈ listFields) (hid : id ∈ table.ids owner key) : id ∈ table.listings := by
  obtain ⟨object, hobject, hid⟩ := exists_of_mem_ids hid
  have hentry := Dict.mem_of_lookup (object?_eq_some.mp hobject)
  exact List.mem_flatMap.mpr ⟨_, hentry, List.mem_flatMap.mpr ⟨key, hkey, hid⟩⟩

/-- An entry that lists nothing adds nothing. -/
lemma listings_insert_new {table : ObjectTable} {id : ObjectId} {value : Value}
    (hid : Dict.contains table id = false) (hvalue : listedIn value = []) :
    listings (Dict.insert table id value) = listings table := by
  obtain ⟨before, after, hsplit, hinsert⟩ :=
    Dict.insert_of_lookup_none (Dict.lookup_of_contains_eq_false hid) value
  rw [hinsert, hsplit]
  simp [listings, hvalue]

/-- One more id at the end of one list of an object. -/
lemma listedIn_append {object : Object} {key : String} {items : List Value}
    (hkey : key ∈ listFields) (hitems : (object.lookup key).getD (.array []) = .array items)
    (id : ObjectId) :
    (listedIn (.dictionary (Dict.insert object key (.array (items ++ [.string id]))))).Perm
      (listedIn (.dictionary object) ++ [id]) := by
  have hsame : ∀ other, other ≠ key →
      Object.ids (Dict.insert object key (.array (items ++ [.string id]))) other =
        object.ids other :=
    fun _ hne => Object.ids_insert_of_ne _ hne
  have hmore := Object.ids_insert_append hitems id
  have hkeys : key = "children" ∨ key = "buildPhases" ∨ key = "files" := by
    simpa [listFields] using hkey
  rw [List.perm_iff_count]
  intro other
  rcases hkeys with rfl | rfl | rfl
  · simp [listedIn, listFields, hmore, hsame, List.count_cons]
    omega
  · simp [listedIn, listFields, hmore, hsame, List.count_cons]
  · simp [listedIn, listFields, hmore, hsame]

lemma listings_insert_append {table : ObjectTable} (hsorted : Dict.Sorted table)
    {owner : ObjectId} {object : Object} (howner : table.object? owner = some object)
    {key : String} {items : List Value} (hkey : key ∈ listFields)
    (hitems : (object.lookup key).getD (.array []) = .array items) (id : ObjectId) :
    (listings (Dict.insert table owner
      (.dictionary (Dict.insert object key (.array (items ++ [.string id])))))).Perm
        (listings table ++ [id]) := by
  obtain ⟨before, after, hsplit, hinsert⟩ :=
    hsorted.insert_of_lookup_some (object?_eq_some.mp howner)
      (.dictionary (Dict.insert object key (.array (items ++ [.string id]))))
  have hlisted := List.perm_iff_count.mp (listedIn_append hkey hitems id)
  rw [hinsert, hsplit, List.perm_iff_count]
  intro other
  simp only [listings, List.flatMap_append, List.flatMap_cons, List.count_append, hlisted other]
  omega

end ObjectTable

namespace Project

/-! ## What insertions list -/

lemma NewObject.listedIn_eq_nil {object : Object} (h : NewObject object) :
    ObjectTable.listedIn (.dictionary object) = [] := by
  simp [ObjectTable.listedIn, h.ids_eq_nil]

/-- One insertion lists its id once, or does not list it. -/
lemma listings_insert {p : Project} (hsorted : Dict.Sorted p.objects) {i : Insertion}
    (hproper : i.Proper) {object : Object} (howner : p.object? i.owner = some object) :
    ((p.insert i).state.objects.listings).Perm (p.objects.listings ++
      if (p.insert i).result.isOk then [ObjectId.fresh p.objects i.seed] else []) := by
  have hfresh := ObjectId.contains_fresh p.objects i.seed
  have hempty := hproper.newObject.listedIn_eq_nil
  have hnew := ObjectTable.listings_insert_new hfresh hempty
  have hne : i.owner ≠ ObjectId.fresh p.objects i.seed :=
    Dict.ne_of_contains (contains_of_object? howner) hfresh
  rcases insert_cases howner with ⟨items, hitems, hinsert⟩ | ⟨e, hinsert⟩
  · -- The object goes in first, and its owner is found in the table with it.
    rw [hinsert, ← hnew]
    refine ObjectTable.listings_insert_append (hsorted.insert _ _) ?_ i.key_mem_listFields hitems _
    have hobject := object?_setObject p (ObjectId.fresh p.objects i.seed) i.owner i.object
    rwa [if_neg hne, howner] at hobject
  · rw [hinsert]
    simp only [Except.isOk, Except.toBool, Bool.false_eq_true, if_false, List.append_nil]
    exact List.Perm.of_eq hnew

/-- The listings after insertions are those before and the ids of the linked ones. -/
theorem Inserts.listings_perm {p q : Project} {made : List Inserted} (h : Inserts p made q)
    (hp : Dict.Sorted p.objects) : (q.objects.listings).Perm
      (p.objects.listings ++ (made.filter (·.linked)).map Inserted.id) := by
  induction h with
  | none => simp
  | @next made q i object before hproper howner ih =>
    refine (listings_insert (before.sorted hp) hproper howner).trans ?_
    rw [List.filter_append, List.map_append, ← List.append_assoc]
    refine ih.append ?_
    cases (q.insert i).result.isOk <;> simp

/-! ## References -/

/-- Every id in a list of an object is in the table. -/
def ReferencesClosed (p : Project) : Prop :=
  ∀ id ∈ p.objects.listings, Dict.contains p.objects id = true

instance (p : Project) : Decidable p.ReferencesClosed :=
  inferInstanceAs (Decidable (∀ id ∈ p.objects.listings, _))

theorem Inserts.referencesClosed {p q : Project} {made : List Inserted} (h : Inserts p made q)
    (hp : Dict.Sorted p.objects) (hclosed : p.ReferencesClosed) : q.ReferencesClosed := by
  intro id hid
  rw [(h.listings_perm hp).mem_iff, List.mem_append] at hid
  rw [h.contains_iff]
  refine hid.imp (hclosed id) ?_
  intro hmade
  obtain ⟨m, hm, rfl⟩ := List.mem_map.mp hmade
  exact List.mem_map_of_mem (List.mem_of_mem_filter hm)

/-- A new id is listed once more than before, if its owner lists it. -/
theorem Inserts.count_listings_eq {p q : Project} {made : List Inserted} (h : Inserts p made q)
    (hp : Dict.Sorted p.objects) {m : Inserted} (hm : m ∈ made) :
    q.objects.listings.count m.id =
      p.objects.listings.count m.id + if m.linked then 1 else 0 := by
  have hids := h.nodup.1
  have hlinked : ((made.filter (·.linked)).map Inserted.id).Nodup :=
    hids.sublist (List.filter_sublist.map Inserted.id)
  -- Another entry of the record with this id would be the same entry.
  have hmem : m.id ∈ (made.filter (·.linked)).map Inserted.id ↔ m.linked = true := by
    constructor
    · intro hid
      obtain ⟨other, hother, heq⟩ := List.mem_map.mp hid
      obtain ⟨hother, hothers⟩ := List.mem_filter.mp hother
      rwa [← List.inj_on_of_nodup_map hids hother hm heq]
    · intro hlink
      exact List.mem_map_of_mem (List.mem_filter.mpr ⟨hm, hlink⟩)
  rw [(h.listings_perm hp).count_eq, List.count_append, hlinked.count]
  simp only [hmem]

/-- How often a new id is listed, if nothing listed it before. -/
theorem Inserts.count_listings {p q : Project} {made : List Inserted} (h : Inserts p made q)
    (hp : Dict.Sorted p.objects) {m : Inserted} (hm : m ∈ made) (hnew : m.id ∉ p.objects.listings) :
    q.objects.listings.count m.id = if m.linked then 1 else 0 := by
  rw [h.count_listings_eq hp hm, List.count_eq_zero_of_not_mem hnew, Nat.zero_add]

/-! ## Any operations -/

lemma develops_apply (p : Project) (operation : Operation) : Develops p (operation.apply p) := by
  cases operation with
  | newGroup parent name path => exact spans_develops.newGroup p parent name path
  | newFile group path => exact spans_develops.newFile p group path
  | attach target file => exact spans_develops.attach p target file
  | register paths => exact develops_register p paths
  | registerEach paths => exact develops_registerEach p paths

lemma develops_perform (p : Project) (operations : List Operation) :
    Develops p (p.perform operations) := by
  induction operations generalizing p with
  | nil => exact .refl p
  | cons operation rest ih => exact trans_of Develops (develops_apply p operation) (ih _)

/-- After any operations, refused or not, every id in a list is in the table.  What the operations
added is on record, and each object there is in one list, once, if its owner could list it, and in
no list otherwise. -/
theorem added_objects_have_one_owner {text path : String} {p : Project}
    (hload : load text path = .ok p) (hclosed : p.ReferencesClosed) (operations : List Operation) :
    (p.perform operations).ReferencesClosed ∧
    (∃ made, p.Inserts made (p.perform operations)) ∧
    ∀ made, p.Inserts made (p.perform operations) →
      (∀ id, p.objects.IsNew (p.perform operations).objects id ↔ id ∈ made.map Inserted.id) ∧
      ∀ m ∈ made,
        (p.perform operations).objects.listings.count m.id = if m.linked then 1 else 0 := by
  have hsorted := (PropertyList.Value.canonical_dictionary.mp (loadable_of_load hload).1.objects).1
  obtain ⟨made, hmade⟩ := develops_perform p operations
  refine ⟨hmade.referencesClosed hsorted hclosed, ⟨made, hmade⟩, ?_⟩
  intro made hmade
  refine ⟨hmade.isNew_iff, ?_⟩
  intro m hm
  refine hmade.count_listings hsorted hm ?_
  intro hlisted
  have hold := hclosed m.id hlisted
  rw [hmade.nodup.2 m hm] at hold
  cases hold

/-- A project with a group whose children are not a list. -/
def brokenProject : Project :=
  sampleProject.setObject "BROKEN"
    (.dictionary [("children", .string ""), ("isa", .string Kind.group)])

/-- One file that its group cannot list, and one that the main group lists. -/
def brokenOperations : List Operation :=
  [.newFile "BROKEN" "x.m", .newFile "MAIN" "y.m"]

lemma loadable_brokenProject : brokenProject.Loadable := by
  decide

theorem added_objects_have_one_owner_broken :
    load brokenProject.write brokenProject.path = .ok brokenProject ∧
    brokenProject.ReferencesClosed ∧
    ∃ made, brokenProject.Inserts made (brokenProject.perform brokenOperations) ∧
      made.map Inserted.linked = [false, true] ∧
      ∀ m ∈ made, (brokenProject.perform brokenOperations).objects.listings.count m.id =
        if m.linked then 1 else 0 := by
  have hload := load_write loadable_brokenProject (by decide)
  have hclosed : brokenProject.ReferencesClosed := by decide
  have hall := (added_objects_have_one_owner hload hclosed brokenOperations).2.2
  obtain ⟨orphan, horphan⟩ : ∃ object, brokenProject.object? "BROKEN" = some object :=
    Option.isSome_iff_exists.mp (by decide)
  have hfirst := Inserts.next (i := .file "BROKEN" "x.m") .none trivial horphan
  obtain ⟨main, hmain⟩ : ∃ object,
      (brokenProject.insert (.file "BROKEN" "x.m")).state.object? "MAIN" = some object :=
    Option.isSome_iff_exists.mp (by decide +kernel)
  have hboth := hfirst.next (i := .file "MAIN" "y.m") trivial hmain
  have hlinked : [(brokenProject.insert (.file "BROKEN" "x.m")).result.isOk,
      ((brokenProject.insert (.file "BROKEN" "x.m")).state.insert
        (.file "MAIN" "y.m")).result.isOk] = [false, true] := by decide +kernel
  have hperform : brokenProject.perform brokenOperations =
      ((brokenProject.insert (.file "BROKEN" "x.m")).state.insert (.file "MAIN" "y.m")).state := by
    decide +kernel
  rw [← hperform] at hboth
  refine ⟨hload, hclosed, _, hboth, ?_, (hall _ hboth).2⟩
  simp only [List.nil_append, List.cons_append, List.map_cons, List.map_nil]
  exact hlinked

end Project

end XcodeProject
