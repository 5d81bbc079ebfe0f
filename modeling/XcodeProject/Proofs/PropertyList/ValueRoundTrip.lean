import Mathlib
import XcodeProject.Proofs.PropertyList.ReaderExact
import XcodeProject.Proofs.PropertyList.WrittenText

/-!
# A value that stands by itself is read back

`Value.write` lays out a value with line feeds between its lines and none after the last one, so the
text ends where the value does.  What is known about lines with a head and a tail
(`Value.exists_denotes_lines`) is used here with both of them empty: then the text is a notation of
the value and has nothing else in it (`denotes_write`).

Formatting a text is reading it and writing what was read.  Since the value is read back, a text that
was formatted once stays as it is.
-/

namespace XcodeProject.PropertyList

/-- Line feeds between lines, and one more after the last line, are a line feed after each. -/
lemma textOf_eq_intercalate {lines : List String} (h : lines ≠ []) :
    textOf lines = ("\n".intercalate lines).toList ++ ['\n'] := by
  induction lines with
  | nil => exact absurd rfl h
  | cons line rest ih =>
    cases rest with
    | nil => simp
    | cons next more =>
      rw [textOf_cons, ih (List.cons_ne_nil next more), String.intercalate_cons_cons]
      simp

lemma Value.lines_ne_nil (spell : Spelling) (depth : Nat) (head tail : String)
    (key : Option String) (value : Value) : lines spell depth head tail key value ≠ [] := by
  cases value <;> simp [lines]

/-- The text of a value is a notation of the value. -/
lemma denotes_write {value : Value} (h : value.Canonical) :
    Denotes value.write.toList value := by
  have hfaithful : Faithful fun _ => quote := fun _ content => spells_quote content
  obtain ⟨body, hbody, htext⟩ := Value.exists_denotes_lines hfaithful h 0 "" "" none
  have hlines := Value.lines_ne_nil (fun _ => quote) 0 "" "" none value
  rw [textOf_eq_intercalate hlines] at htext
  have hwrite : value.write.toList = body := by
    simpa [Value.write] using htext
  rwa [hwrite]

lemma documentText_write {value : Value} (h : value.Canonical) :
    DocumentText value.write.toList value := by
  have hend : Delimited [] := by simp [Delimited, NotAhead]
  obtain ⟨stop, hvalue, hafter⟩ := denotes_write h [] hend
  rw [List.append_nil] at hvalue
  exact ⟨value.write.toList, stop, .none _, hvalue, hafter⟩

/-- A value that is written is read back. -/
lemma parse_write {value : Value} (h : value.Canonical) : parse value.write = .ok value := by
  apply parse_of_documentText
  rw [documentText_dropByteOrderMark_iff]
  exact ⟨[], value.write.toList, .inl rfl, rfl, documentText_write h⟩

/-- A text in the layout of the value it is read as. -/
def format (text : String) : Except ParseError String :=
  (parse text).map Value.write

lemma format_eq_ok {text formatted : String} :
    format text = .ok formatted ↔ ∃ value, parse text = .ok value ∧ value.write = formatted := by
  unfold format
  cases parse text <;> simp [Except.map]

/-- Every value is read back from its text, and a formatted text is formatted as itself. -/
theorem values_read_back_as_written :
    (∀ value : Value, value.Canonical → parse value.write = .ok value) ∧
      ∀ text formatted, format text = .ok formatted → format formatted = .ok formatted := by
  refine ⟨fun value h => parse_write h, ?_⟩
  intro text formatted hformat
  obtain ⟨value, hparse, rfl⟩ := format_eq_ok.mp hformat
  have hagain := parse_write (canonical_of_parse hparse)
  exact format_eq_ok.mpr ⟨value, hagain, rfl⟩

/-- Strings with a use in the notation: none at all, slashes, quotes, a backslash, control
characters, a byte order mark; as items, as keys and as values. -/
def awkwardValue : Value :=
  .dictionary
    [("", .string ""), ("\"\\", .array [.string "/", .string "//", .string "/*", .array []]),
      ("isa", .dictionary [("a___b", .string "\x00\x7f\n'é"), ("é", .dictionary [])]),
      ("\ufeff", .string "-+")]

theorem values_read_back_as_written_awkward :
    awkwardValue.Canonical ∧ parse awkwardValue.write = .ok awkwardValue ∧
      format "'\\101' // one" = .ok "A" ∧ format "A" = .ok "A" := by
  have hcanonical : awkwardValue.Canonical := by decide
  have hformat : format "'\\101' // one" = .ok "A" := by decide +kernel
  exact ⟨hcanonical, values_read_back_as_written.1 awkwardValue hcanonical, hformat,
    values_read_back_as_written.2 _ _ hformat⟩

end XcodeProject.PropertyList
