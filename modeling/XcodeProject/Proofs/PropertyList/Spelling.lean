import Mathlib
import XcodeProject.Proofs.PropertyList.WrittenText

/-!
# The layout depends on how the strings of a value are spelled, and on nothing else

How strings are spelled is a parameter of the layout, so a spelling that differs only at strings
which a value does not hold gives the same lines (`Value.lines_congr`) and the same text on one line
(`Value.inline_congr`).  `Value.strings` are the strings that a value holds at any depth.  Keys are
not among them: a key is always written the same way.
-/

namespace XcodeProject.PropertyList.Value

/-! ## The strings of a value -/

mutual

/-- The strings that a value holds, at any depth and in order. -/
def strings : Value → List String
  | .string text => [text]
  | .array items => itemStrings items
  | .dictionary entries => entryStrings entries

/-- The strings that items hold. -/
def itemStrings : List Value → List String
  | [] => []
  | item :: rest => strings item ++ itemStrings rest

/-- The strings that the values of entries hold. -/
def entryStrings : List (String × Value) → List String
  | [] => []
  | (_, value) :: rest => strings value ++ entryStrings rest

end

lemma string?_eq_some {value : Value} {text : String} :
    value.string? = some text ↔ value = string text := by
  cases value <;> simp [string?]

lemma mem_strings_string (text : String) : text ∈ (string text).strings := by
  simp [strings]

lemma mem_strings_array {text : String} {items : List Value} :
    text ∈ (array items).strings ↔ ∃ item ∈ items, text ∈ item.strings := by
  rw [strings]
  induction items with
  | nil => simp [itemStrings]
  | cons item rest ih => simp [itemStrings, ih]

lemma mem_strings_dictionary {text : String} {entries : List (String × Value)} :
    text ∈ (dictionary entries).strings ↔ ∃ entry ∈ entries, text ∈ entry.2.strings := by
  rw [strings]
  induction entries with
  | nil => simp [entryStrings]
  | cons entry rest ih => simp [entryStrings, ih]

lemma mem_strings_of_lookup {text key : String} {entries : List (String × Value)} {value : Value}
    (hlookup : entries.lookup key = some value) (htext : text ∈ value.strings) :
    text ∈ (dictionary entries).strings :=
  mem_strings_dictionary.mpr ⟨(key, value), Dict.mem_of_lookup hlookup, htext⟩

/-! ## Two spellings -/

variable {spell spell' : Spelling}

/-- Two spellings that agree on the strings of a value give it the same lines. -/
theorem lines_congr {value : Value}
    (h : ∀ text ∈ value.strings, ∀ key, spell' key text = spell key text) (depth : Nat)
    (head tail : String) (key : Option String) :
    lines spell' depth head tail key value = lines spell depth head tail key value := by
  induction value generalizing depth head tail key with
  | string text => rw [lines, lines, h text (by simp [strings])]
  | array items ih =>
    rw [lines, lines, itemLines_eq, itemLines_eq]
    congr 2
    refine List.flatMap_congr fun item hitem => ih item hitem ?_ _ _ _ _
    intro text htext
    exact h text (mem_strings_array.mpr ⟨item, hitem, htext⟩)
  | dictionary entries ih =>
    rw [lines, lines, entryLines_eq, entryLines_eq]
    congr 4
    refine List.map_congr_left fun entry hentry => ?_
    rw [ih entry hentry]
    intro text htext
    exact h text (mem_strings_dictionary.mpr ⟨entry, hentry, htext⟩)

lemma inlineItems_congr {items : List Value}
    (h : ∀ item ∈ items, inline spell' none item = inline spell none item) :
    inlineItems spell' items = inlineItems spell items := by
  induction items with
  | nil => simp only [inlineItems]
  | cons item rest ih =>
    obtain ⟨hitem, hrest⟩ := List.forall_mem_cons.mp h
    rw [inlineItems, inlineItems, hitem, ih hrest]

/-- Two spellings that agree on the strings of a value give it the same text on one line. -/
theorem inline_congr {value : Value}
    (h : ∀ text ∈ value.strings, ∀ key, spell' key text = spell key text)
    (key : Option String) : inline spell' key value = inline spell key value := by
  induction value generalizing key with
  | string text => rw [inline, inline, h text (by simp [strings])]
  | array items ih =>
    rw [inline, inline, inlineItems_congr fun item hitem => ih item hitem ?_ none]
    intro text htext
    exact h text (mem_strings_array.mpr ⟨item, hitem, htext⟩)
  | dictionary entries ih =>
    rw [inline, inline, inlineEntries_eq, inlineEntries_eq]
    congr 5
    refine List.map_congr_left fun entry hentry => ?_
    rw [ih entry hentry]
    intro text htext
    exact h text (mem_strings_dictionary.mpr ⟨entry, hentry, htext⟩)

end XcodeProject.PropertyList.Value
