import Mathlib
import XcodeProject.Dict

/-!
# Sorted dictionaries are determined by their look-ups

A dictionary is a list of entries, but nothing that reads it depends on more than what the keys
have for values.  This module makes that exact for dictionaries in order: two of them with the same
look-ups are the same list (`Sorted.ext`), and entries that are inserted one by one in any order at
all give back the dictionary they came from (`ofEntries_eq_of_perm`).  The second fact is what lets
a text hold the entries of a dictionary in an order of its own.

`erase_insert` is the same fact for one entry that is put in and taken out again.

The last section compares two dictionaries in order of which one has all the keys of the other.  Then
the entries of the smaller one are met in the larger one in the same order, with others in between
(`Sorted.embeds`).
-/

namespace XcodeProject.Dict

variable {α : Type}

instance (d : Dict α) : Decidable d.Sorted :=
  inferInstanceAs (Decidable (d.keys.Pairwise (· < ·)))

/-! ## Entries and look-ups -/

lemma Sorted.nodup {d : Dict α} (hd : d.Sorted) : d.keys.Nodup := by
  refine List.Pairwise.imp ?_ hd
  intro a b hlt heq
  exact String.lt_irrefl b (heq ▸ hlt)

/-- Where no key is repeated, looking up finds exactly the entries. -/
lemma lookup_eq_some_iff_mem {d : Dict α} (hd : d.keys.Nodup) (key : String) (value : α) :
    d.lookup key = some value ↔ (key, value) ∈ d := by
  induction d with
  | nil => simp
  | cons entry rest ih =>
    obtain ⟨k, v⟩ := entry
    obtain ⟨hk, hrest⟩ := List.nodup_cons.mp hd
    rw [List.lookup_cons]
    by_cases h : key = k
    · subst h
      have hnot : (key, value) ∉ rest := fun hmem => hk (List.mem_map.mpr ⟨_, hmem, rfl⟩)
      simp [hnot, eq_comm]
    · rw [beq_eq_false_iff_ne.mpr h]
      simp only [List.mem_cons, Prod.mk.injEq, h, false_and, false_or]
      exact ih hrest

lemma lookup_cons_of_ne {d : Dict α} {k key : String} (h : key ≠ k) (v : α) :
    List.lookup key ((k, v) :: d) = d.lookup key := by
  rw [List.lookup_cons, beq_eq_false_iff_ne.mpr h]

lemma mem_of_lookup {d : Dict α} {key : String} {value : α} (h : d.lookup key = some value) :
    (key, value) ∈ d := by
  obtain ⟨l₁, l₂, rfl, -⟩ := List.lookup_eq_some_iff.mp h
  simp

lemma mem_insert {d : Dict α} {key : String} {value : α} {entry : String × α}
    (h : entry ∈ d.insert key value) : entry = (key, value) ∨ entry ∈ d := by
  induction d with
  | nil => simpa [insert] using h
  | cons first rest ih =>
    simp only [insert] at h
    split at h
    · simpa using h
    · split at h
      · rcases List.mem_cons.mp h with h | h
        · exact .inl h
        · exact .inr (List.mem_cons_of_mem _ h)
      · rcases List.mem_cons.mp h with h | h
        · exact .inr (h ▸ List.mem_cons_self ..)
        · exact (ih h).imp_right (List.mem_cons_of_mem _)

lemma contains_eq_isSome (d : Dict α) (key : String) : d.contains key = (d.lookup key).isSome :=
  rfl

lemma contains_of_lookup {d : Dict α} {key : String} {value : α}
    (h : d.lookup key = some value) : d.contains key = true := by
  rw [contains_eq_isSome, h, Option.isSome_some]

lemma lookup_of_contains_eq_false {d : Dict α} {key : String} (h : d.contains key = false) :
    d.lookup key = none := by
  rwa [contains_eq_isSome, Option.isSome_eq_false_iff, Option.isNone_iff_eq_none] at h

lemma ne_of_contains {d : Dict α} {key other : String} (h : d.contains key = true)
    (hother : d.contains other = false) : key ≠ other := by
  rintro rfl
  rw [h] at hother
  cases hother

lemma contains_insert (d : Dict α) (key other : String) (value : α) :
    (d.insert key value).contains other = (other == key || d.contains other) := by
  rw [contains_eq_isSome, lookup_insert]
  by_cases h : other = key
  · simp [h]
  · simp [h, contains_eq_isSome]

/-- A key is in the dictionary after an insertion that it was in before. -/
lemma contains_insert_of_contains {d : Dict α} {other : String} (h : d.contains other = true)
    (key : String) (value : α) : (d.insert key value).contains other = true := by
  rw [contains_insert, h, Bool.or_true]

/-! ## Where insertion happens -/

/-- A new key comes between two parts of the dictionary, which stay as they are. -/
lemma insert_of_lookup_none {d : Dict α} {key : String} (h : d.lookup key = none) (value : α) :
    ∃ before after, d = before ++ after ∧ d.insert key value = before ++ (key, value) :: after := by
  induction d with
  | nil => exact ⟨[], [], rfl, rfl⟩
  | cons entry rest ih =>
    obtain ⟨k, v⟩ := entry
    have hne : key ≠ k := by
      rintro rfl
      simp at h
    rw [List.lookup_cons, beq_eq_false_iff_ne.mpr hne] at h
    obtain ⟨before, after, hrest, hinsert⟩ := ih h
    rw [insert]
    by_cases hlt : key < k
    · rw [if_pos hlt]
      exact ⟨[], (k, v) :: rest, rfl, rfl⟩
    · rw [if_neg hlt, if_neg hne]
      exact ⟨(k, v) :: before, after, by rw [hrest, List.cons_append],
        by rw [hinsert, List.cons_append]⟩

/-- A key that is there has its value replaced in place. -/
lemma Sorted.insert_of_lookup_some {d : Dict α} (hd : d.Sorted) {key : String} {old : α}
    (h : d.lookup key = some old) (value : α) :
    ∃ before after, d = before ++ (key, old) :: after ∧
      d.insert key value = before ++ (key, value) :: after := by
  induction d with
  | nil => simp at h
  | cons entry rest ih =>
    obtain ⟨k, v⟩ := entry
    obtain ⟨hfirst, hrest⟩ := List.pairwise_cons.mp hd
    rw [Dict.insert]
    by_cases heq : key = k
    · subst heq
      rw [List.lookup_cons_self, Option.some.injEq] at h
      rw [if_neg (String.lt_irrefl key), if_pos rfl, h]
      exact ⟨[], rest, rfl, rfl⟩
    · rw [List.lookup_cons, beq_eq_false_iff_ne.mpr heq] at h
      have hmem : key ∈ keys rest := (contains_eq_true_iff rest key).mp (by simp [contains, h])
      obtain ⟨before, after, hsplit, hinsert⟩ := ih hrest h
      rw [if_neg (String.lt_asymm (hfirst key hmem)), if_neg heq]
      exact ⟨(k, v) :: before, after, by rw [hsplit, List.cons_append],
        by rw [hinsert, List.cons_append]⟩

/-! ## Equality from look-ups -/

/-- Two dictionaries in order with the same entries are equal. -/
lemma Sorted.eq_of_mem_iff {d e : Dict α} (hd : d.Sorted) (he : e.Sorted)
    (h : ∀ entry, entry ∈ d ↔ entry ∈ e) : d = e := by
  have hperm : d.Perm e :=
    (List.perm_ext_iff_of_nodup (List.Nodup.of_map _ hd.nodup) (List.Nodup.of_map _ he.nodup)).mpr h
  have hd' : d.Pairwise fun a b => a.1 < b.1 := List.pairwise_map.mp hd
  have he' : e.Pairwise fun a b => a.1 < b.1 := List.pairwise_map.mp he
  refine hperm.eq_of_pairwise ?_ hd' he'
  intro a b _ _ hab hba
  exact absurd hba (String.lt_asymm hab)

/-- Two dictionaries in order with the same look-ups are equal. -/
theorem Sorted.ext {d e : Dict α} (hd : d.Sorted) (he : e.Sorted)
    (h : ∀ key, d.lookup key = e.lookup key) : d = e := by
  refine hd.eq_of_mem_iff he ?_
  rintro ⟨key, value⟩
  rw [← lookup_eq_some_iff_mem hd.nodup, ← lookup_eq_some_iff_mem he.nodup, h]

/-! ## Entries inserted one by one -/

lemma ofEntries_append_singleton (entries : List (String × α)) (entry : String × α) :
    ofEntries (entries ++ [entry]) = (ofEntries entries).insert entry.1 entry.2 := by
  simp [ofEntries]

lemma sorted_ofEntries (entries : List (String × α)) : (ofEntries entries).Sorted := by
  induction entries using List.reverseRecOn with
  | nil => simp [ofEntries, Sorted, keys]
  | append_singleton entries entry ih =>
    rw [ofEntries_append_singleton]
    exact ih.insert _ _

/-- Of several entries with one key the last one counts. -/
lemma lookup_ofEntries (entries : List (String × α)) (key : String) :
    (ofEntries entries).lookup key = entries.reverse.lookup key := by
  induction entries using List.reverseRecOn with
  | nil => rfl
  | append_singleton entries entry ih =>
    rw [ofEntries_append_singleton, lookup_insert, ih, List.reverse_append]
    by_cases h : key = entry.1
    · rw [if_pos h, h]
      exact List.lookup_cons_self.symm
    · rw [if_neg h]
      exact (lookup_cons_of_ne h entry.2).symm

/-- Inserting the entries of a dictionary one by one, in whatever order, gives the dictionary. -/
theorem ofEntries_eq_of_perm {d : Dict α} {entries : List (String × α)} (hd : d.Sorted)
    (hperm : entries.Perm d) : ofEntries entries = d := by
  have hreverse : entries.reverse.Perm d := entries.reverse_perm.trans hperm
  have hnodup : (keys entries.reverse).Nodup := (hreverse.map Prod.fst).nodup_iff.mpr hd.nodup
  refine (sorted_ofEntries entries).ext hd fun key => ?_
  rw [lookup_ofEntries]
  refine Option.ext fun value => ?_
  rw [lookup_eq_some_iff_mem hnodup, lookup_eq_some_iff_mem hd.nodup, hreverse.mem_iff]

/-! ## One entry taken out and put back -/

lemma Sorted.erase {d : Dict α} (hd : d.Sorted) (key : String) : (d.erase key).Sorted :=
  List.Pairwise.sublist (List.Sublist.map Prod.fst List.filter_sublist) hd

lemma lookup_erase (d : Dict α) (key other : String) :
    (d.erase key).lookup other = if other = key then none else d.lookup other := by
  induction d with
  | nil => simp [erase]
  | cons entry rest ih =>
    obtain ⟨k, v⟩ := entry
    have hcons : erase ((k, v) :: rest) key =
        if k = key then erase rest key else (k, v) :: erase rest key := by
      by_cases hk : k = key <;> simp [erase, hk]
    rw [hcons]
    by_cases hk : k = key
    · subst hk
      rw [if_pos rfl, ih, List.lookup_cons]
      by_cases h : other = k
      · simp [h]
      · simp [h, beq_eq_false_iff_ne.mpr h]
    · rw [if_neg hk, List.lookup_cons, List.lookup_cons, ih]
      by_cases h : other = k
      · subst h
        simp [hk]
      · simp [beq_eq_false_iff_ne.mpr h]

lemma erase_insert {d : Dict α} {key : String} (hd : d.Sorted) (h : d.lookup key = none)
    (value : α) : (d.insert key value).erase key = d := by
  refine ((hd.insert key value).erase key).ext hd fun other => ?_
  rw [lookup_erase, lookup_insert]
  by_cases ho : other = key
  · rw [if_pos ho, ho, h]
  · rw [if_neg ho, if_neg ho]

/-! ## One dictionary inside another -/

/-- The elements of a list are in another list, in the same order and with others in between.  How
an element may look there is `kept`, and what may come in between is `added`. -/
inductive Embeds {α β : Type} (kept : α → β → Prop) (added : β → Prop) : List α → List β → Prop
  /-- Nothing in nothing. -/
  | nil : Embeds kept added [] []
  /-- An element that is in both lists. -/
  | keep {a : α} {b : β} {l : List α} {l' : List β} (hkept : kept a b)
      (more : Embeds kept added l l') : Embeds kept added (a :: l) (b :: l')
  /-- An element of the larger list only. -/
  | add {b : β} {l : List α} {l' : List β} (hadded : added b) (more : Embeds kept added l l') :
      Embeds kept added l (b :: l')

namespace Embeds

variable {α β γ σ τ : Type} {kept : α → β → Prop} {added : β → Prop} {l m : List α}
  {l' m' : List β}

lemma append (h : Embeds kept added l l') (h' : Embeds kept added m m') :
    Embeds kept added (l ++ m) (l' ++ m') := by
  induction h with
  | nil => exact h'
  | keep hkept _ ih => exact .keep hkept ih
  | add hadded _ ih => exact .add hadded ih

lemma filter {p : α → Bool} {q : β → Bool} (hpq : ∀ a b, kept a b → q b = p a)
    (h : Embeds kept added l l') : Embeds kept added (l.filter p) (l'.filter q) := by
  induction h with
  | nil => exact .nil
  | @keep a b l l' hkept _ ih =>
    rw [List.filter_cons, List.filter_cons, hpq a b hkept]
    split
    · exact .keep hkept ih
    · exact ih
  | add hadded _ ih =>
    rw [List.filter_cons]
    split
    · exact .add hadded ih
    · exact ih

/-- What is laid out from the smaller list is laid out from the larger one, with more in between. -/
lemma sublist_flatMap {f : α → List γ} {g : β → List γ}
    (hfg : ∀ a b, kept a b → (f a).Sublist (g b)) (h : Embeds kept added l l') :
    (l.flatMap f).Sublist (l'.flatMap g) := by
  induction h with
  | nil => exact List.Sublist.slnil
  | keep hkept _ ih => exact (hfg _ _ hkept).append ih
  | add _ _ ih => exact ih.trans (List.sublist_append_right _ _)

/-- Two runs over the lists stay related if an element in both keeps them so, and an element of the
larger list only does, too. -/
lemma foldl {f : σ → α → σ} {g : τ → β → τ} {R : σ → τ → Prop}
    (hkeep : ∀ s t a b, kept a b → R s t → R (f s a) (g t b))
    (hadd : ∀ s t b, added b → R s t → R s (g t b)) (h : Embeds kept added l l') {s : σ} {t : τ}
    (hst : R s t) : R (l.foldl f s) (l'.foldl g t) := by
  induction h generalizing s t with
  | nil => exact hst
  | keep hkept _ ih => exact ih (hkeep _ _ _ _ hkept hst)
  | add hadded _ ih => exact ih (hadd _ _ _ hadded hst)

end Embeds

lemma Sorted.ne_of_lookup {d : Dict α} {k key : String} {v value : α}
    (hd : Sorted ((k, v) :: d)) (h : d.lookup key = some value) : key ≠ k := by
  rintro rfl
  have hmem := (contains_eq_true_iff d key).mp (contains_of_lookup h)
  exact String.lt_irrefl key ((List.pairwise_cons.mp hd).1 key hmem)

/-- The keys of a dictionary in order are in another one in the same order. -/
theorem Sorted.embeds {β : Type} {d : Dict α} {e : Dict β} (hd : d.Sorted) (he : e.Sorted)
    {kept : String → α → β → Prop} {added : String → β → Prop}
    (hkept : ∀ key value, d.lookup key = some value →
      ∃ value', e.lookup key = some value' ∧ kept key value value')
    (hadded : ∀ key value', d.lookup key = none → e.lookup key = some value' →
      added key value') :
    Embeds (fun a b => b.1 = a.1 ∧ kept a.1 a.2 b.2) (fun b => added b.1 b.2) d e := by
  induction e generalizing d with
  | nil =>
    cases d with
    | nil => exact .nil
    | cons entry rest =>
      obtain ⟨value', hvalue', -⟩ := hkept entry.1 entry.2 List.lookup_cons_self
      cases hvalue'
  | cons entry rest ih =>
    obtain ⟨k, v⟩ := entry
    have hrest : Sorted rest := (List.pairwise_cons.mp he).2
    have hlookup : ∀ key value', rest.lookup key = some value' →
        List.lookup key ((k, v) :: rest) = some value' :=
      fun key value' h => (lookup_cons_of_ne (he.ne_of_lookup h) v).trans h
    by_cases hk : d.lookup k = none
    · -- The first key of the larger dictionary is not in the smaller one.
      refine .add (hadded k v hk List.lookup_cons_self) (ih hd hrest ?_ ?_)
      · intro key value hvalue
        have hne : key ≠ k := by
          rintro rfl
          rw [hk] at hvalue
          cases hvalue
        rw [← lookup_cons_of_ne hne v]
        exact hkept key value hvalue
      · intro key value' hnone hvalue'
        exact hadded key value' hnone (hlookup key value' hvalue')
    · -- Otherwise it is the first key there as well, since no key of the larger one is before it.
      obtain ⟨value, hvalue⟩ := Option.ne_none_iff_exists'.mp hk
      obtain ⟨first, more, rfl⟩ : ∃ first more, d = first :: more := by
        cases d with
        | nil => cases hvalue
        | cons first more => exact ⟨first, more, rfl⟩
      obtain ⟨k', v'⟩ := first
      have hmore : Sorted more := (List.pairwise_cons.mp hd).2
      obtain ⟨w, hw, hvw⟩ := hkept k' v' List.lookup_cons_self
      obtain rfl : k' = k := by
        by_contra hne
        rw [lookup_cons_of_ne hne] at hw
        rw [lookup_cons_of_ne (Ne.symm hne)] at hvalue
        have hbelow := (List.pairwise_cons.mp he).1 k'
          ((contains_eq_true_iff rest k').mp (contains_of_lookup hw))
        have habove := (List.pairwise_cons.mp hd).1 k
          ((contains_eq_true_iff more k).mp (contains_of_lookup hvalue))
        exact String.lt_asymm hbelow habove
      rw [List.lookup_cons_self, Option.some.injEq] at hw
      refine .keep ⟨rfl, hw ▸ hvw⟩ (ih hmore hrest ?_ ?_)
      · intro key value hvalue
        have hne := hd.ne_of_lookup hvalue
        rw [← lookup_cons_of_ne hne v]
        exact hkept key value ((lookup_cons_of_ne hne v').trans hvalue)
      · intro key value' hnone hvalue'
        have hne := he.ne_of_lookup hvalue'
        exact hadded key value' ((lookup_cons_of_ne hne v').trans hnone) (hlookup key value' hvalue')

/-- What is laid out from a dictionary in key order is laid out from a larger one. -/
lemma Sorted.sublist_flatMap {β γ : Type} {d : Dict α} {e : Dict β} (hd : d.Sorted)
    (he : e.Sorted) {f : String × α → List γ} {g : String × β → List γ}
    (h : ∀ key value, d.lookup key = some value →
      ∃ value', e.lookup key = some value' ∧ (f (key, value)).Sublist (g (key, value'))) :
    (d.flatMap f).Sublist (e.flatMap g) := by
  have hadded : ∀ key value', d.lookup key = none → e.lookup key = some value' → True :=
    fun _ _ _ _ => trivial
  refine (hd.embeds he h hadded).sublist_flatMap ?_
  rintro ⟨key, value⟩ ⟨key', value'⟩ ⟨rfl, hlines⟩
  exact hlines

end XcodeProject.Dict
