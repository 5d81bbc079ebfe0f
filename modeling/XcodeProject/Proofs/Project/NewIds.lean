import Mathlib
import XcodeProject.Proofs.Project.EditRecords
import XcodeProject.Proofs.Registration.Attachment

/-!
# Where the id of a new object is mentioned

An id can be mentioned before it has an object: lists may hold ids that the table does not have, and
so may the entries of phases.  The id of a new object is meant to be one that is not in use.  The
search for it misses such mentions, since it compares with the keys of the table only.  So an edit
can take an id that is in use, and its object is then found from where nobody put it
(`dangling_reference_is_taken`).  A file can come to be listed twice in this way.  A group can come to
have two parents, and then registering the same paths again can change the project.

What an edit adds itself is one mention: the new id goes to the end of the list of the owner that the
object was made for (`Edited.listedBy_eq`), and no build file is made for it.  So the mentions of a
new id are the ones it had and this one.  It had none if the table has every id that is mentioned.
-/

namespace XcodeProject

open PropertyList (Value)

/-! ## Mentions -/

namespace ObjectTable

/-- The ids in lists and the files that are named, each as often as it occurs. -/
def mentions (table : ObjectTable) : List ObjectId :=
  table.listings ++ table.filterMap fun entry => entry.2.dictionary?.bind (Object.text? · "fileRef")

lemma count_mentions (table : ObjectTable) (id : ObjectId) :
    table.mentions.count id = table.listings.count id + table.countText "fileRef" id := by
  rw [mentions, List.count_append, List.count_filterMap, countText]
  simp only [beq_eq_decide]

end ObjectTable

namespace Project

lemma contains_of_mem_mentions {p : Project} (hp : p.Closed) {id : ObjectId}
    (hid : id ∈ p.objects.mentions) : Dict.contains p.objects id = true := by
  rcases List.mem_append.mp hid with hlisted | hnamed
  · exact hp.references id hlisted
  · obtain ⟨⟨entry, value⟩, hentry, hfile⟩ := List.mem_filterMap.mp hnamed
    obtain ⟨object, hobject, hfile⟩ := Option.bind_eq_some_iff.mp hfile
    refine hp.fileRefs entry id (Option.bind_eq_some_iff.mpr ⟨object, ?_, hfile⟩)
    have hlookup := (Dict.lookup_eq_some_iff_mem hp.sorted.nodup entry value).mpr hentry
    show (p.objects.lookup entry).bind Value.dictionary? = some object
    rw [hlookup]
    exact hobject

/-- A new id gets the mention of its owner and no other one, if no build file is made for it. -/
theorem Inserts.count_mentions {p q : Project} {made : List Inserted} (h : Inserts p made q)
    (hp : Dict.Sorted p.objects) {m : Inserted} (hm : m ∈ made)
    (hbuilt : ∀ other ∈ made, ∀ phase, other.what ≠ .buildFile phase m.id) :
    q.objects.mentions.count m.id = p.objects.mentions.count m.id + if m.linked then 1 else 0 := by
  have hlistings := h.count_listings_eq hp hm
  have hnames := h.countText_eq hp "fileRef" m.id
  have hnone : (made.countP fun other => other.what.object.text? "fileRef" = some m.id) = 0 := by
    rw [List.countP_eq_zero]
    intro other hother hnames
    obtain ⟨phase, hwhat⟩ := Insertion.text?_fileRef_eq_some.mp (of_decide_eq_true hnames)
    exact hbuilt other hother phase hwhat
  rw [ObjectTable.count_mentions, ObjectTable.count_mentions]
  omega

/-! ## One edit -/

/-- An edit that was not refused, with the record of what it inserted. -/
inductive Edited (p : Project) : List Inserted → Project → Prop
  /-- A group was added to a group. -/
  | newGroup {parent id : ObjectId} {name path : String} {q : Project}
      (h : p.newGroup parent name path = ⟨.ok id, q⟩) :
      Edited p [⟨.group parent name path, id, true⟩] q
  /-- A file reference was added to a group. -/
  | newFile {parent id : ObjectId} {path : String} {q : Project}
      (h : p.newFile parent path = ⟨.ok id, q⟩) : Edited p [⟨.file parent path, id, true⟩] q
  /-- A target was made to build a file. -/
  | attach {target : Target} {file : ObjectId} {attachment : Attachment} {q : Project}
      (h : p.attach target file = ⟨.ok attachment, q⟩) :
      Edited p (attachment.record target.id file) q

lemma contains_of_attach {p q : Project} {target : Target} {file buildFile : ObjectId}
    {phase : Phase} (h : p.attach target file = ⟨.ok (.added buildFile phase), q⟩) :
    Dict.contains p.objects file = true := by
  unfold Project.attach at h
  split at h
  · split at h
    · cases h
    · next reference hreference =>
      exact contains_of_object? (object?_of_fileReference? hreference)
  · cases h

namespace Edited

variable {p q : Project} {made : List Inserted}

lemma inserts (h : Edited p made q) : Inserts p made q := by
  cases h with
  | newGroup h => exact inserts_newGroup h
  | newFile h => exact inserts_newFile h
  | attach h => exact inserts_attach h

/-- What a build file is made for is in the project. -/
lemma contains_built (h : Edited p made q) {m : Inserted} (hm : m ∈ made) {phase file : ObjectId}
    (hwhat : m.what = .buildFile phase file) : Dict.contains p.objects file = true := by
  cases h with
  | newGroup h =>
    obtain rfl := List.mem_singleton.mp hm
    cases hwhat
  | newFile h =>
    obtain rfl := List.mem_singleton.mp hm
    cases hwhat
  | @attach target built attachment q h =>
    cases attachment with
    | added buildFile holder =>
      rcases List.mem_append.mp hm with hm | hm
      · obtain ⟨-, rfl⟩ := Phase.mem_record.mp hm
        cases hwhat
      · obtain rfl := List.mem_singleton.mp hm
        cases hwhat
        exact contains_of_attach h
    | present => cases hm
    | declined => cases hm

/-- Each new id is put at the end of the list of its owner. -/
lemma listedBy_eq (h : Edited p made q) {m : Inserted} (hm : m ∈ made) :
    m.linked = true ∧ listedBy made m.what.owner m.what.key = [m.id] := by
  cases h with
  | newGroup h =>
    obtain rfl := List.mem_singleton.mp hm
    simp [listedBy]
  | newFile h =>
    obtain rfl := List.mem_singleton.mp hm
    simp [listedBy]
  | @attach target built attachment q h =>
    cases attachment with
    | added buildFile phase =>
      rw [Attachment.record, listedBy_append]
      -- A phase and a build file go to lists with different keys.
      rcases List.mem_append.mp hm with hm | hm
      · obtain ⟨hnew, rfl⟩ := Phase.mem_record.mp hm
        simp [listedBy, Phase.record, hnew, Insertion.key]
      · obtain rfl := List.mem_singleton.mp hm
        unfold Phase.record
        split <;> simp [listedBy, Insertion.key]
    | present => cases hm
    | declined => cases hm

end Edited

/-- The new ids of an edit are those on its record.  Each of them was not a key of the table, and
the edit mentions it once, at the end of the list of its owner.  It was not mentioned before if the
project has the objects it refers to. -/
theorem new_ids_get_one_mention {text path : String} {p q : Project}
    (hload : load text path = .ok p) {made : List Inserted} (hedited : p.Edited made q) :
    (∀ id, p.objects.IsNew q.objects id ↔ id ∈ made.map Inserted.id) ∧
    ∀ m ∈ made,
      Dict.contains p.objects m.id = false ∧
      q.objects.ids m.what.owner m.what.key = p.objects.ids m.what.owner m.what.key ++ [m.id] ∧
      q.objects.mentions.count m.id = p.objects.mentions.count m.id + 1 ∧
      (p.ReferencesClosed → p.FileRefsClosed → m.id ∉ p.objects.mentions) := by
  have hsorted := sorted_of_load hload
  have hinserts := hedited.inserts
  refine ⟨hinserts.isNew_iff, ?_⟩
  intro m hm
  have hnew := hinserts.nodup.2 m hm
  obtain ⟨hlinked, hlist⟩ := hedited.listedBy_eq hm
  refine ⟨hnew, ?_, ?_, ?_⟩
  · rw [hinserts.ids_eq, hlist]
  · have hbuilt : ∀ other ∈ made, ∀ phase, other.what ≠ .buildFile phase m.id := by
      intro other hother phase hwhat
      have hold := hedited.contains_built hother hwhat
      rw [hnew] at hold
      cases hold
    rw [hinserts.count_mentions hsorted hm hbuilt, if_pos hlinked]
  · intro hreferences hfileRefs hmentioned
    have hold := contains_of_mem_mentions ⟨hsorted, hreferences, hfileRefs⟩ hmentioned
    rw [hnew] at hold
    cases hold

/-- To build its first file, the target gets a phase and the phase gets a build file. -/
theorem new_ids_get_one_mention_sample :
    load sampleProject.write sampleProject.path = .ok sampleProject ∧
    ∃ target ∈ sampleProject.targets, ∃ buildFile phase q,
      sampleProject.attach target "FILE" = ⟨.ok (.added buildFile phase), q⟩ ∧
      phase.isNew = true ∧
      ∀ id ∈ [phase.id, buildFile], id ∉ sampleProject.objects.mentions ∧
        q.objects.mentions.count id = 1 := by
  have hreferences : sampleProject.ReferencesClosed := by decide
  have hfileRefs : sampleProject.FileRefsClosed := by decide
  have hresult : (sampleProject.attach ⟨"TARGET", "App", Kind.nativeTarget⟩ "FILE").result.toOption =
      some (.added "5CE93A7B0F9C57F5CED5648C"
        ⟨"51F6BE9F880441F3708037EB", Kind.sourcesPhase, true⟩) := by decide +kernel
  have hattach := Attempt.eq_of_result_eq_ok (Attempt.result_eq_ok hresult)
  have hall := (new_ids_get_one_mention load_sampleProject (.attach hattach)).2
  refine ⟨load_sampleProject, _, by decide, _, _, _, hattach, rfl, ?_⟩
  intro id hid
  obtain ⟨m, hm, rfl⟩ : ∃ m ∈ (Attachment.added "5CE93A7B0F9C57F5CED5648C"
      ⟨"51F6BE9F880441F3708037EB", Kind.sourcesPhase, true⟩).record "TARGET" "FILE", m.id = id :=
    List.mem_map.mp hid
  obtain ⟨-, -, hcount, hunmentioned⟩ := hall m hm
  have hnone := hunmentioned hreferences hfileRefs
  rw [List.count_eq_zero_of_not_mem hnone] at hcount
  exact ⟨hnone, hcount⟩

/-- A group that lists an id without an object. -/
def danglingProject : Project :=
  sampleProject.setObject "GROUP" (.dictionary
    [("children", .array [.string "FILE", .string "FD42F442F7F4D92E859C67F5"]),
      ("isa", .string Kind.group), ("path", .string "A")])

lemma loadable_danglingProject : danglingProject.Loadable := by
  decide

/-- The id of the new group in the main group is in use: another group lists it, so the new group is
a child of both. -/
theorem dangling_reference_is_taken :
    load danglingProject.write danglingProject.path = .ok danglingProject ∧
    ∃ id q, danglingProject.newGroup "MAIN" "B" "B" = ⟨.ok id, q⟩ ∧
      id ∈ danglingProject.objects.mentions ∧
      id ∈ q.objects.ids "MAIN" "children" ∧ id ∈ q.objects.ids "GROUP" "children" := by
  have hresult : (danglingProject.newGroup "MAIN" "B" "B").result.toOption =
      some "FD42F442F7F4D92E859C67F5" := by decide +kernel
  have hgroup := Attempt.eq_of_result_eq_ok (Attempt.result_eq_ok hresult)
  refine ⟨load_write loadable_danglingProject (by decide), _, _, hgroup, by decide, ?_⟩
  decide +kernel

end Project

end XcodeProject
