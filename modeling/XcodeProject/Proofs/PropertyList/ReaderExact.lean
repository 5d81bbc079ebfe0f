import Mathlib
import XcodeProject.Proofs.PropertyList.ReaderComplete
import XcodeProject.Proofs.PropertyList.ReaderSound
import XcodeProject.Proofs.SortedDict

/-!
# The reader accepts exactly the notation

A text is read as a value if and only if the grammar derives it with that value, after at most one
byte order mark (`reader_accepts_exactly_the_notation`).  Both directions are known for a text from
which the reader has dropped a mark; what is left is that no derivation begins with one
(`not_documentText_mark`), so that there is never a choice whether to drop it.

The grammar and the reader share the functions that say what a single character is, and the one that
collects the entries of a dictionary.  `Lexicon` says what these are by lists of characters, so that
the two together fix the notation down to its characters.
-/

namespace XcodeProject.PropertyList

open XcodeProject.Text

/-! ## Characters -/

/-- The characters of a string without quotes. -/
def bareCharacters : List Char :=
  "ABCDEFGHIJKLMNOPQRSTUVWXYZabcdefghijklmnopqrstuvwxyz0123456789_$+/:.-".toList

/-- The code points with the property `White_Space`. -/
def whiteSpaceCodes : List Nat :=
  [0x9, 0xa, 0xb, 0xc, 0xd, 0x20, 0x85, 0xa0, 0x1680, 0x2000, 0x2001, 0x2002, 0x2003, 0x2004,
    0x2005, 0x2006, 0x2007, 0x2008, 0x2009, 0x200a, 0x2028, 0x2029, 0x202f, 0x205f, 0x3000]

/-- The letters that stand for another character after a backslash. -/
def escapes : List (Char × Char) :=
  [('n', '\n'), ('t', '\t'), ('r', '\r'), ('b', '\x08'), ('f', '\x0c'), ('v', '\x0b'),
    ('a', '\x07')]

/-- What the grammar does not spell out: the classes of characters, the values of digits, the
letters of escape sequences, and which entry counts where a key is repeated. -/
structure Lexicon : Prop where
  /-- The characters of white space. -/
  whiteSpace : ∀ c, isWhiteSpace c = true ↔ c.toNat ∈ whiteSpaceCodes
  /-- The characters of bare strings. -/
  bare : ∀ c, isBare c = true ↔ c ∈ bareCharacters
  /-- A hexadecimal digit of either case stands for its place. -/
  hexadecimal : ∀ c, hexDigit? c =
    ("0123456789abcdef".toList.idxOf? c <|> "0123456789ABCDEF".toList.idxOf? c)
  /-- An octal digit stands for its place. -/
  octal : ∀ c, octalDigit? c = "01234567".toList.idxOf? c
  /-- After a backslash, a character without a meaning of its own stands for itself. -/
  escape : ∀ c, unescape c = (escapes.lookup c).getD c
  /-- A repeated key keeps its last value. -/
  repeated : ∀ (entries : List (String × Value)) key,
    (Dict.ofEntries entries).lookup key = entries.reverse.lookup key
  /-- A dictionary has its entries in the order of their keys. -/
  ordered : ∀ entries : List (String × Value), (Dict.ofEntries entries).Sorted

/-- Two functions of characters are the same if they are so for every character of ASCII, one by
one, and for all others. -/
lemma eq_of_ascii {α : Type} {f g : Char → α}
    (hascii : ∀ n : Fin 128, f (Char.ofNat n) = g (Char.ofNat n))
    (hbeyond : ∀ c : Char, 128 ≤ c.toNat → f c = g c) (c : Char) : f c = g c := by
  by_cases hc : c.toNat < 128
  · have h := hascii ⟨c.toNat, hc⟩
    rwa [Char.ofNat_toNat] at h
  · exact hbeyond c (by omega)

section Beyond

variable {c : Char} (hc : 128 ≤ c.toNat)
include hc

lemma not_le_of_ascii {d : Char} (hd : d.toNat < 128) : ¬ c ≤ d := by
  intro hle
  have hle : c.toNat ≤ d.toNat := hle
  omega

lemma not_mem_of_ascii {chars : List Char} (hchars : chars.all (·.toNat < 128) = true) :
    c ∉ chars := by
  intro hmem
  have hlt := of_decide_eq_true (List.all_eq_true.mp hchars c hmem)
  omega

end Beyond

lemma isBare_eq : ∀ c, isBare c = decide (c ∈ bareCharacters) := by
  refine eq_of_ascii (by decide +kernel) ?_
  intro c hc
  have hbare : ¬ isBare c = true := by
    rw [isBare_iff]
    rintro (((h | h) | h) | h)
    · omega
    · omega
    · omega
    · exact not_mem_of_ascii hc (by decide) h
  rw [Bool.eq_false_iff.mpr hbare, decide_eq_false (not_mem_of_ascii hc (by decide))]

lemma hexDigit?_eq : ∀ c, hexDigit? c =
    ("0123456789abcdef".toList.idxOf? c <|> "0123456789ABCDEF".toList.idxOf? c) := by
  refine eq_of_ascii (by decide +kernel) ?_
  intro c hc
  have hlower : "0123456789abcdef".toList.idxOf? c = none :=
    List.idxOf?_eq_none_iff.mpr (not_mem_of_ascii hc (by decide))
  have hupper : "0123456789ABCDEF".toList.idxOf? c = none :=
    List.idxOf?_eq_none_iff.mpr (not_mem_of_ascii hc (by decide))
  rw [hlower, hupper, hexDigit?, if_neg fun h => not_le_of_ascii hc (by decide) h.2,
    if_neg fun h => not_le_of_ascii hc (by decide) h.2,
    if_neg fun h => not_le_of_ascii hc (by decide) h.2]
  rfl

lemma octalDigit?_eq : ∀ c, octalDigit? c = "01234567".toList.idxOf? c := by
  refine eq_of_ascii (by decide +kernel) ?_
  intro c hc
  have hdigits : "01234567".toList.idxOf? c = none :=
    List.idxOf?_eq_none_iff.mpr (not_mem_of_ascii hc (by decide))
  rw [hdigits, octalDigit?, if_neg fun h => not_le_of_ascii hc (by decide) h.2]

lemma unescape_eq (c : Char) : unescape c = (escapes.lookup c).getD c := by
  unfold unescape
  split
  case h_8 hn ht hr hb hf hv ha =>
    have hnone : escapes.lookup c = none := by
      rw [List.lookup_eq_none_iff]
      simp only [escapes, List.mem_cons, List.not_mem_nil, or_false]
      rintro p (rfl | rfl | rfl | rfl | rfl | rfl | rfl) <;> simpa
    rw [hnone, Option.getD_none]
  all_goals rfl

lemma lexicon : Lexicon where
  whiteSpace := by
    intro c
    simp only [isWhiteSpace, whiteSpaceRanges, List.any_cons, List.any_nil, Bool.or_false,
      Bool.or_eq_true, Bool.and_eq_true, decide_eq_true_eq, whiteSpaceCodes, List.mem_cons,
      List.not_mem_nil, or_false]
    omega
  bare c := by rw [isBare_eq, decide_eq_true_iff]
  hexadecimal := hexDigit?_eq
  octal := octalDigit?_eq
  escape := unescape_eq
  repeated := Dict.lookup_ofEntries
  ordered := Dict.sorted_ofEntries

/-! ## The byte order mark -/

/-- A text that is derived does not begin with a byte order mark. -/
lemma not_documentText_mark (body : List Char) (value : Value) :
    ¬ DocumentText ('\ufeff' :: body) value := by
  rintro ⟨start, stop, hbefore, hvalue, -⟩
  cases hbefore with
  | space hspace _ => exact absurd hspace (by decide)
  | none =>
    cases hvalue with
    | string more =>
      obtain ⟨c, rest, heq, hc, -⟩ := more.head
      obtain ⟨rfl, -⟩ := List.cons.inj heq
      exact absurd hc (by decide)

/-- Dropping a mark if there is one is dropping a mark or not, as far as derivations go. -/
lemma documentText_dropByteOrderMark_iff (text : List Char) (value : Value) :
    DocumentText (dropByteOrderMark text) value ↔
      ∃ mark body, (mark = [] ∨ mark = ['\ufeff']) ∧ text = mark ++ body ∧
        DocumentText body value := by
  constructor
  · intro h
    cases text with
    | nil => exact ⟨[], [], .inl rfl, rfl, h⟩
    | cons c rest =>
      rw [dropByteOrderMark] at h
      split at h
      · next hmark => exact ⟨['\ufeff'], rest, .inr rfl, by rw [hmark]; rfl, h⟩
      · exact ⟨[], c :: rest, .inl rfl, rfl, h⟩
  · rintro ⟨mark, body, hmark, rfl, h⟩
    rcases hmark with rfl | rfl
    · cases body with
      | nil => exact h
      | cons c rest =>
        have hmark : c ≠ '\ufeff' := by
          rintro rfl
          exact not_documentText_mark rest value h
        rwa [List.nil_append, dropByteOrderMark, if_neg hmark]
    · exact h

/-! ## Exactness -/

/-- A text is read as a value exactly when it is a notation of that value, with one byte order mark
in front or none. -/
theorem reader_accepts_exactly_the_notation :
    Lexicon ∧ ∀ (text : String) (value : Value), parse text = .ok value ↔
      ∃ mark body, (mark = [] ∨ mark = ['\ufeff']) ∧ text.toList = mark ++ body ∧
        DocumentText body value := by
  refine ⟨lexicon, fun text value => ?_⟩
  rw [← documentText_dropByteOrderMark_iff]
  exact ⟨documentText_of_parse, parse_of_documentText⟩

end XcodeProject.PropertyList
