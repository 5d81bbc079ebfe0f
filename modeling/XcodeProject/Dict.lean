/-!
# Dictionaries sorted by key

A dictionary is the list of its entries in strictly increasing code-point order of the keys, so two
dictionaries with the same entries are the same list, and going through a dictionary from front to
back is going through it in key order.  `insert` keeps that order and replaces the value of a key
that is already there: the last write wins.  Look-up is `List.lookup`.

The type is a plain list because dictionaries nest: a property-list value holds a dictionary of
property-list values.
-/

namespace XcodeProject

/-- The entries of a dictionary, in strictly increasing order of their keys. -/
abbrev Dict (α : Type) := List (String × α)

namespace Dict

variable {α : Type}

/-- The keys, in order. -/
def keys (d : Dict α) : List String :=
  d.map Prod.fst

/-- The dictionary is in order: keys increase strictly, so none is repeated. -/
def Sorted (d : Dict α) : Prop :=
  d.keys.Pairwise (· < ·)

/-- A key has a value. -/
def contains (d : Dict α) (key : String) : Bool :=
  (d.lookup key).isSome

/-- The dictionary with `value` under `key`, in place of any value that was there. -/
def insert (d : Dict α) (key : String) (value : α) : Dict α :=
  match d with
  | [] => [(key, value)]
  | (k, v) :: rest =>
    if key < k then (key, value) :: (k, v) :: rest
    else if key = k then (key, value) :: rest
    else (k, v) :: insert rest key value

/-- The dictionary without `key`. -/
def erase (d : Dict α) (key : String) : Dict α :=
  d.filter (·.1 ≠ key)

/-- The dictionary of a list of entries; of two entries with one key the later one counts. -/
def ofEntries (entries : List (String × α)) : Dict α :=
  entries.foldl (fun d entry => insert d entry.1 entry.2) []

/-- A key that the dictionary does not have: it is longer than every key. -/
def unusedKey (d : Dict α) : String :=
  String.join d.keys ++ "0"

/-! ## Looking up -/

@[simp] theorem contains_eq_true_iff (d : Dict α) (key : String) :
    d.contains key = true ↔ key ∈ d.keys := by
  induction d with
  | nil => simp [contains, keys]
  | cons entry rest ih =>
    obtain ⟨k, v⟩ := entry
    by_cases h : key = k
    · simp [contains, keys, h]
    · simp_all [contains, keys, List.lookup_cons, beq_eq_false_iff_ne.mpr h]

/-- A key that was inserted has the value it was inserted with, and every other key has the value it
had. -/
theorem lookup_insert (d : Dict α) (key other : String) (value : α) :
    (d.insert key value).lookup other = if other = key then some value else d.lookup other := by
  induction d with
  | nil => by_cases h : other = key <;> simp [insert, List.lookup_cons, h, beq_eq_false_iff_ne.mpr]
  | cons entry rest ih =>
    obtain ⟨k, v⟩ := entry
    simp only [insert]
    split
    · by_cases h : other = key <;> simp [List.lookup_cons, h, beq_eq_false_iff_ne.mpr]
    · split
      · next hk =>
        subst hk
        by_cases h : other = key <;> simp [List.lookup_cons, h, beq_eq_false_iff_ne.mpr]
      · next hk =>
        by_cases h : other = k
        · subst h
          simp [Ne.symm hk]
        · simp [List.lookup_cons, beq_eq_false_iff_ne.mpr h, ih]

/-- Inserting adds its key to the keys and no other. -/
theorem mem_keys_insert (d : Dict α) (key other : String) (value : α) :
    other ∈ (d.insert key value).keys ↔ other = key ∨ other ∈ d.keys := by
  rw [← contains_eq_true_iff, ← contains_eq_true_iff, contains, contains, lookup_insert]
  by_cases h : other = key <;> simp [h]

/-! ## Keys that are not there -/

theorem length_le_length_join {key : String} {keys : List String} (h : key ∈ keys) :
    key.length ≤ (String.join keys).length := by
  induction keys with
  | nil => cases h
  | cons k rest ih =>
    rw [String.join_cons, String.length_append]
    rcases List.mem_cons.mp h with rfl | h
    · exact Nat.le_add_right _ _
    · exact Nat.le_trans (ih h) (Nat.le_add_left _ _)

/-- The unused key is not a key. -/
theorem contains_unusedKey (d : Dict α) : d.contains d.unusedKey = false := by
  rw [Bool.eq_false_iff, ne_eq, contains_eq_true_iff]
  intro h
  have longer := length_le_length_join h
  have one : "0".length = 1 := by decide
  rw [unusedKey, String.length_append] at longer
  omega

/-! ## Order -/

/-- Inserting keeps a dictionary in order. -/
theorem Sorted.insert {d : Dict α} (h : d.Sorted) (key : String) (value : α) :
    (d.insert key value).Sorted := by
  induction d with
  | nil => simp [Dict.insert, Sorted, keys]
  | cons entry rest ih =>
    obtain ⟨k, v⟩ := entry
    have hk : ∀ other ∈ keys rest, k < other := (List.pairwise_cons.mp h).1
    have hrest : Sorted rest := (List.pairwise_cons.mp h).2
    simp only [Dict.insert]
    split
    · next hlt =>
      refine List.pairwise_cons.mpr ⟨?_, h⟩
      intro other hmem
      rcases List.mem_cons.mp hmem with rfl | hmem
      · exact hlt
      · exact String.lt_trans hlt (hk other hmem)
    · split
      · next heq => exact List.pairwise_cons.mpr ⟨heq ▸ hk, hrest⟩
      · next hnlt hne =>
        refine List.pairwise_cons.mpr ⟨?_, ih hrest⟩
        intro other hmem
        rcases (mem_keys_insert rest key other value).mp hmem with rfl | hmem
        · exact Decidable.byContradiction fun h =>
            hne (String.le_antisymm (String.not_lt.mp h) (String.not_lt.mp hnlt))
        · exact hk other hmem

end Dict

end XcodeProject
