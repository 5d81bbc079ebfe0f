import Mathlib
import XcodeProject.Proofs.Registration.Uncached

/-!
# The search for a fresh id ends

An id for a new object is looked for attempt by attempt, and nothing in the search itself says that
it ends: `Finds` is the search as it goes, without a bound, with a counter that must not pass its
greatest value.  The search that runs is given so many derivations; what it gives is what the search
without a bound finds, as soon as the derivations suffice (`Finds.firstFree_eq`), and those that
`search` has always suffice, since the counter has no more values (`Finds.search_eq`).  So `search`
has no result only if the ids of all attempts are taken (`search_eq_none_iff`), and then there is no
id that a search could end at.

Otherwise the search ends because a table of `n` objects cannot have `n + 1` different ids as keys
(`exists_free_candidate`).  That the ids of the first attempts differ is up to the hash and is
assumed.
-/

namespace XcodeProject.ObjectId

/-! ## The search as it goes -/

/-- From `attempt` on, the search derives so many ids, and the last one is the first that is not
taken.  The counter goes up by one after each id that is taken, and does not overflow. -/
inductive Finds (taken : ObjectId → Bool) (seed : List String) : UInt32 → Nat → ObjectId → Prop
  /-- The id is free, so this is the end. -/
  | free {attempt : UInt32} (hfree : taken (derive seed attempt) = false) :
      Finds taken seed attempt 1 (derive seed attempt)
  /-- The id is taken, so the next attempt is made. -/
  | next {attempt : UInt32} {derivations : Nat} {id : ObjectId}
      (htaken : taken (derive seed attempt) = true) (hroom : attempt.toNat + 1 < UInt32.size)
      (hrest : Finds taken seed (attempt + 1) derivations id) :
      Finds taken seed attempt (derivations + 1) id

lemma toNat_add_one {attempt : UInt32} (hroom : attempt.toNat + 1 < UInt32.size) :
    (attempt + 1).toNat = attempt.toNat + 1 := by
  rw [UInt32.toNat_add]
  exact Nat.mod_eq_of_lt hroom

namespace Finds

variable {taken : ObjectId → Bool} {seed : List String} {attempt : UInt32} {derivations : Nat}
  {id : ObjectId}

/-- There are no more derivations than the counter has values left. -/
lemma toNat_add_le_size (h : Finds taken seed attempt derivations id) :
    attempt.toNat + derivations ≤ UInt32.size := by
  induction h with
  | @free attempt hfree => exact attempt.toNat_lt
  | next htaken hroom hrest ih =>
    rw [toNat_add_one hroom] at ih
    omega

/-- With enough derivations the bounded search finds the same id, and with fewer it finds none. -/
lemma firstFree_eq (h : Finds taken seed attempt derivations id) (budget : Nat) :
    firstFree taken seed budget attempt = if derivations ≤ budget then some id else none := by
  induction h generalizing budget with
  | free hfree => cases budget <;> simp [firstFree, hfree]
  | next htaken hroom hrest ih => cases budget <;> simp [firstFree, htaken, ih]

/-- The values of the counter suffice. -/
lemma search_eq {table : ObjectTable} (h : Finds (Dict.contains table) seed 0 derivations id) :
    search table seed = some id := by
  have hsize : derivations ≤ UInt32.size := by simpa using h.toNat_add_le_size
  rw [search, h.firstFree_eq, if_pos hsize]

/-- Where the search ends, the id of a new object is the one it finds. -/
lemma fresh_eq {table : ObjectTable} (h : Finds (Dict.contains table) seed 0 derivations id) :
    fresh table seed = id := by
  rw [fresh, h.search_eq, Option.getD_some]

end Finds

/-- If `first` is free and all attempts before it are taken, the search comes from each of them to
`first`. -/
lemma finds_of_forall_taken {taken : ObjectId → Bool} {seed : List String} {first : UInt32}
    (hfree : taken (derive seed first) = false)
    (htaken : ∀ attempt < first, taken (derive seed attempt) = true) {distance : Nat}
    {attempt : UInt32} (hdistance : attempt.toNat + distance = first.toNat) :
    Finds taken seed attempt (distance + 1) (derive seed first) := by
  induction distance generalizing attempt with
  | zero =>
    obtain rfl := UInt32.toNat_inj.mp hdistance
    exact .free hfree
  | succ distance ih =>
    have hlt : attempt.toNat < first.toNat := by omega
    -- The counter has room: `first` is still ahead and is a value of it.
    have hroom : attempt.toNat + 1 < UInt32.size := Nat.lt_of_le_of_lt hlt first.toNat_lt
    refine .next (htaken attempt (UInt32.lt_iff_toNat_lt.mpr hlt)) hroom (ih ?_)
    rw [toNat_add_one hroom]
    omega

/-! ## The first free attempt -/

/-- The attempts whose ids are not keys of the table. -/
def freeAttempts (table : ObjectTable) (seed : List String) : Set UInt32 :=
  {attempt | Dict.contains table (derive seed attempt) = false}

lemma finds_of_isLeast {table : ObjectTable} {seed : List String} {first : UInt32}
    (hfirst : IsLeast (freeAttempts table seed) first) :
    Finds (Dict.contains table) seed 0 (first.toNat + 1) (derive seed first) := by
  have htaken : ∀ attempt < first, Dict.contains table (derive seed attempt) = true := by
    intro attempt hlt
    by_contra hnot
    have hle := hfirst.2 (Bool.eq_false_of_not_eq_true hnot)
    exact UInt32.not_lt.mpr hle hlt
  exact finds_of_forall_taken hfirst.1 htaken (Nat.zero_add _)

lemma exists_isLeast {attempts : Set UInt32} (h : attempts.Nonempty) :
    ∃ first, IsLeast attempts first := by
  obtain ⟨first, hmem, hmin⟩ := (measure UInt32.toNat).wf.has_min attempts h
  refine ⟨first, hmem, ?_⟩
  intro attempt hattempt
  exact UInt32.le_iff_toNat_le.mpr (not_lt.mp (hmin attempt hattempt))

lemma exists_attempt_of_firstFree {taken : ObjectId → Bool} {seed : List String} {count : Nat}
    {attempt : UInt32} {id : ObjectId} (h : firstFree taken seed count attempt = some id) :
    ∃ found, id = derive seed found := by
  induction count generalizing attempt with
  | zero => cases h
  | succ count ih =>
    rw [firstFree] at h
    split at h
    · exact ih h
    · exact ⟨attempt, (Option.some.inj h).symm⟩

/-- The search comes to nothing exactly if every attempt gives an id that is taken. -/
theorem search_eq_none_iff {table : ObjectTable} {seed : List String} :
    search table seed = none ↔ freeAttempts table seed = ∅ := by
  constructor
  · intro hnone
    rw [← Set.not_nonempty_iff_eq_empty]
    intro hfree
    obtain ⟨first, hfirst⟩ := exists_isLeast hfree
    rw [(finds_of_isLeast hfirst).search_eq] at hnone
    cases hnone
  · intro hempty
    cases hsearch : search table seed with
    | none => rfl
    | some id =>
      obtain ⟨attempt, rfl⟩ := exists_attempt_of_firstFree hsearch
      have hmem : attempt ∈ freeAttempts table seed := not_taken_of_firstFree hsearch
      rw [hempty] at hmem
      cases hmem

/-- The ids of the first `count` attempts. -/
def candidates (seed : List String) (count : Nat) : List ObjectId :=
  (List.range count).map fun attempt => derive seed (.ofNat attempt)

/-- More different ids than a table has entries cannot all be keys of it. -/
lemma exists_free_candidate {table : ObjectTable} {seed : List String} {count : Nat}
    (hdistinct : (candidates seed count).Nodup) (hcount : table.length < count) :
    ∃ attempt < count, .ofNat attempt ∈ freeAttempts table seed := by
  by_contra! hnone
  have hkeys : candidates seed count ⊆ Dict.keys table := by
    intro id hid
    obtain ⟨attempt, hattempt, rfl⟩ := List.mem_map.mp hid
    have htaken := Bool.eq_true_of_not_eq_false (hnone attempt (List.mem_range.mp hattempt))
    exact (Dict.contains_eq_true_iff _ _).mp htaken
  have hlength := (List.subperm_of_subset hdistinct hkeys).length_le
  rw [candidates, Dict.keys, List.length_map, List.length_map, List.length_range] at hlength
  omega

/-- The search for an id ends at the least attempt whose id is not a key of the object table, after
at most one derivation more than there are objects, and the counter does not overflow.  The number
of objects needs no bound of its own: if the ids of so many attempts differ, the counter has a value
for each of them. -/
theorem search_ends_at_the_first_free_attempt (p : Project) (seed : List String)
    (hdistinct : (candidates seed (p.objectCount + 1)).Nodup) :
    ∃ first, IsLeast (freeAttempts p.objects seed) first ∧
      fresh p.objects seed = derive seed first ∧
      first.toNat + 1 ≤ p.objectCount + 1 ∧
      Finds (Dict.contains p.objects) seed 0 (first.toNat + 1) (derive seed first) ∧
      ∀ budget, firstFree (Dict.contains p.objects) seed budget 0 =
        if first.toNat + 1 ≤ budget then some (derive seed first) else none := by
  obtain ⟨attempt, hattempt, hfree⟩ :=
    exists_free_candidate hdistinct (Nat.lt_succ_self p.objects.length)
  obtain ⟨first, hfirst⟩ := exists_isLeast ⟨_, hfree⟩
  have hbound : first.toNat ≤ attempt :=
    calc first.toNat
      _ ≤ (UInt32.ofNat attempt).toNat := UInt32.le_iff_toNat_le.mp (hfirst.2 hfree)
      _ = attempt % UInt32.size := UInt32.toNat_ofNat'
      _ ≤ attempt := Nat.mod_le _ _
  have hfinds := finds_of_isLeast hfirst
  exact ⟨first, hfirst, hfinds.fresh_eq, by omega, hfinds, hfinds.firstFree_eq⟩

/-- A project whose main group has two new groups of one path. -/
def twinsProject : Project :=
  ((Project.sampleProject.newGroup "MAIN" "B" "B").state.newGroup "MAIN" "B" "B").state

/-- What a third group of that path is derived from. -/
def tripletSeed : List String :=
  [Kind.group, "MAIN", "B"]

/-- The ids of the first two attempts are those of the twins, so the third attempt is the first that
is free. -/
theorem search_ends_at_the_first_free_attempt_twins :
    (candidates tripletSeed (twinsProject.objectCount + 1)).Nodup ∧
      IsLeast (freeAttempts twinsProject.objects tripletSeed) 2 ∧
      fresh twinsProject.objects tripletSeed = derive tripletSeed 2 ∧
      Finds (Dict.contains twinsProject.objects) tripletSeed 0 3 (derive tripletSeed 2) := by
  have hdistinct : (candidates tripletSeed (twinsProject.objectCount + 1)).Nodup := by
    decide +kernel
  obtain ⟨first, hfirst, hfresh, -, hfinds, hbudget⟩ :=
    search_ends_at_the_first_free_attempt twinsProject tripletSeed hdistinct
  have htwo : firstFree (Dict.contains twinsProject.objects) tripletSeed 2 0 = none := by
    decide +kernel
  have hthree : firstFree (Dict.contains twinsProject.objects) tripletSeed 3 0 ≠ none := by
    decide +kernel
  rw [hbudget] at htwo hthree
  have hlower : 1 < first.toNat := by simpa using htwo
  have hupper : first.toNat < 3 := by simpa using hthree
  obtain rfl : first = 2 :=
    UInt32.toNat_inj.mp (Nat.le_antisymm (Nat.le_of_lt_succ hupper) hlower)
  exact ⟨hdistinct, hfirst, hfresh, hfinds⟩

end XcodeProject.ObjectId
