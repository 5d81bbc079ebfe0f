import Mathlib
import XcodeProject.Proofs.PropertyList.ReaderSound
import XcodeProject.Proofs.SortedDict

/-!
# Canonical values

A value is canonical when every dictionary inside it is sorted by key.  This module says so without
the auxiliary predicates on lists (`Value.canonical_array`, `Value.canonical_dictionary`) and proves
that reading gives canonical values only (`canonical_of_parse`).

`Value.inductionOn` is the induction that the other modules use on values: a property of all values
follows from its inheritance by strings, by arrays from their items, and by dictionaries from the
values of their entries.
-/

namespace XcodeProject.PropertyList

namespace Value

/-! ## Induction -/

/-- A property that passes from the parts of a value to the value holds of every value. -/
@[elab_as_elim, induction_eliminator]
theorem inductionOn {motive : Value → Prop} (string : ∀ text, motive (.string text))
    (array : ∀ items, (∀ item ∈ items, motive item) → motive (.array items))
    (dictionary : ∀ entries : List (String × Value), (∀ entry ∈ entries, motive entry.2) →
      motive (.dictionary entries)) (value : Value) : motive value :=
  match value with
  | .string text => string text
  | .array items => array items fun item _ => inductionOn string array dictionary item
  | .dictionary entries =>
    dictionary entries fun entry _ => inductionOn string array dictionary entry.2
termination_by sizeOf value
decreasing_by
  · have hitem := List.sizeOf_lt_of_mem ‹item ∈ items›
    simp only [Value.array.sizeOf_spec]
    omega
  · have hentry := List.sizeOf_lt_of_mem ‹entry ∈ entries›
    obtain ⟨key, value⟩ := entry
    simp only [Value.dictionary.sizeOf_spec, Prod.mk.sizeOf_spec] at hentry ⊢
    omega

/-! ## Canonical values by their parts -/

lemma canonicalItems_iff {items : List Value} :
    CanonicalItems items ↔ ∀ item ∈ items, Canonical item := by
  induction items with
  | nil => simp [CanonicalItems]
  | cons item rest ih => simp [CanonicalItems, ih]

lemma canonicalEntries_iff {entries : List (String × Value)} :
    CanonicalEntries entries ↔ ∀ entry ∈ entries, Canonical entry.2 := by
  induction entries with
  | nil => simp [CanonicalEntries]
  | cons entry rest ih =>
    obtain ⟨key, value⟩ := entry
    simp only [CanonicalEntries, ih, List.forall_mem_cons]

@[simp] lemma canonical_string (text : String) : Canonical (.string text) := by
  simp [Canonical]

@[simp] lemma canonical_array {items : List Value} :
    Canonical (.array items) ↔ ∀ item ∈ items, Canonical item := by
  rw [Canonical, canonicalItems_iff]

@[simp] lemma canonical_dictionary {entries : List (String × Value)} :
    Canonical (.dictionary entries) ↔
      Dict.Sorted entries ∧ ∀ entry ∈ entries, Canonical entry.2 := by
  rw [Canonical, canonicalEntries_iff]

mutual

/-- Whether a value is canonical can be decided. -/
def decideCanonical : (value : Value) → Decidable value.Canonical
  | .string _ => isTrue trivial
  | .array items => decideCanonicalItems items
  | .dictionary entries =>
    have := decideCanonicalEntries entries
    inferInstanceAs (Decidable (Dict.Sorted entries ∧ CanonicalEntries entries))

/-- Whether items are canonical can be decided. -/
def decideCanonicalItems : (items : List Value) → Decidable (CanonicalItems items)
  | [] => isTrue trivial
  | item :: rest =>
    have := decideCanonical item
    have := decideCanonicalItems rest
    inferInstanceAs (Decidable (Canonical item ∧ CanonicalItems rest))

/-- Whether the values of entries are canonical can be decided. -/
def decideCanonicalEntries :
    (entries : List (String × Value)) → Decidable (CanonicalEntries entries)
  | [] => isTrue trivial
  | (_, value) :: rest =>
    have := decideCanonical value
    have := decideCanonicalEntries rest
    inferInstanceAs (Decidable (Canonical value ∧ CanonicalEntries rest))

end

instance (value : Value) : Decidable value.Canonical :=
  decideCanonical value

end Value

/-! ## Reading gives canonical values -/

lemma canonical_insert {entries : Dict Value} {value : Value}
    (hentries : (Value.dictionary entries).Canonical) (hvalue : value.Canonical) (key : String) :
    (Value.dictionary (Dict.insert entries key value)).Canonical := by
  rw [Value.canonical_dictionary] at hentries ⊢
  refine ⟨hentries.1.insert key value, ?_⟩
  rintro ⟨k, v⟩ hmem
  rcases Dict.mem_insert hmem with heq | hmem
  · rw [heq]
    exact hvalue
  · exact hentries.2 _ hmem

lemma canonical_ofEntries {entries : List (String × Value)}
    (h : ∀ entry ∈ entries, entry.2.Canonical) :
    (Value.dictionary (Dict.ofEntries entries)).Canonical := by
  induction entries using List.reverseRecOn with
  | nil => simp [Dict.ofEntries, Dict.Sorted, Dict.keys]
  | append_singleton entries entry ih =>
    rw [Dict.ofEntries_append_singleton]
    refine canonical_insert (ih fun other hmem => ?_) (h entry (by simp)) _
    exact h other (List.mem_append_left _ hmem)

mutual

lemma ValueText.canonical {text rest : List Char} {value : Value} :
    ValueText text value rest → value.Canonical
  | .string _ => Value.canonical_string _
  | .array more => Value.canonical_array.mpr more.canonical
  | .dictionary more => canonical_ofEntries more.canonical

lemma ItemsText.canonical {text rest : List Char} {items : List Value} :
    ItemsText text items rest → ∀ item ∈ items, item.Canonical
  | .close _ => by simp
  | .last _ value _ => by simpa using value.canonical
  | .cons _ value _ others => List.forall_mem_cons.mpr ⟨value.canonical, others.canonical⟩

lemma EntriesText.canonical {text rest : List Char} {entries : List (String × Value)} :
    EntriesText text entries rest → ∀ entry ∈ entries, entry.2.Canonical
  | .close _ => by simp
  | .cons _ _ _ _ content _ others =>
    List.forall_mem_cons.mpr ⟨content.canonical, others.canonical⟩

end

/-- Whatever text is read, the value is canonical. -/
theorem canonical_of_parse {text : String} {value : Value} (h : parse text = .ok value) :
    value.Canonical := by
  obtain ⟨start, stop, -, hvalue, -⟩ := documentText_of_parse h
  exact hvalue.canonical

end XcodeProject.PropertyList
