import Mathlib
import XcodeProject.Proofs.PropertyList.Completion
import XcodeProject.Proofs.PropertyList.ReaderExact

/-!
# Errors are at the first bad spot

A parse error names a line and a column, and in a given text these name one spot
(`Position.eq_of_after_take_eq`).  The text before it is no reason for the error: it is the beginning
of a text that can be read, unless a code point is not one, where the error stands after the digit
that is wrong.  The text from the spot on is the reason, and two characters of it are enough: whatever
comes after them, the error is the same.  This does not hold for a comment without an end, which may
still get one.
-/

namespace XcodeProject.PropertyList

/-! ## Positions -/

lemma Position.eq_nil_of_after_append {front more : List Char}
    (h : Position.after (front ++ more) = Position.after front) : more = [] := by
  obtain ⟨hline, hcolumn⟩ := Position.mk.inj h
  have hnone : '\n' ∉ more := by
    rw [← List.count_eq_zero]
    rw [List.count_append] at hline
    omega
  -- On the same line, what stands in between makes the column larger.
  have hmore : ∀ c ∈ more.reverse, decide (c ≠ '\n') = true := by
    intro c hc
    refine decide_eq_true ?_
    rintro rfl
    exact hnone (List.mem_reverse.mp hc)
  rw [List.reverse_append, List.takeWhile_append_of_pos hmore, List.length_append,
    List.length_reverse] at hcolumn
  exact List.length_eq_zero_iff.mp (by omega)

/-- Two spots of a text have different positions. -/
lemma Position.eq_of_after_take_eq {text : List Char} {spot other : Nat} (hspot : spot ≤ text.length)
    (hother : other ≤ text.length)
    (h : Position.after (text.take other) = Position.after (text.take spot)) : other = spot := by
  wlog hle : spot ≤ other generalizing spot other
  · exact (this hother hspot h.symm (by omega)).symm
  have hsplit := List.take_append_drop spot (text.take other)
  rw [List.take_take, min_eq_left hle] at hsplit
  rw [← hsplit] at h
  rw [Position.eq_nil_of_after_append h, List.append_nil] at hsplit
  have hlength := congrArg List.length hsplit
  rw [List.length_take, List.length_take] at hlength
  omega

/-! ## The beginning of a text -/

/-- The first characters of a text, and a byte order mark before them if there is one. -/
def leading (text : String) (count : Nat) : String :=
  String.ofList
    (text.toList.take (text.toList.length - (dropByteOrderMark text.toList).length + count))

lemma dropByteOrderMark_of_head {text : List Char} (h : text.head? ≠ some '\ufeff') :
    dropByteOrderMark text = text := by
  cases text with
  | nil => rfl
  | cons c text => rw [dropByteOrderMark, if_neg (by simpa using h)]

lemma dropByteOrderMark_mark (body : List Char) : dropByteOrderMark ('\ufeff' :: body) = body := by
  rw [dropByteOrderMark, if_pos rfl]

lemma toList_leading_of_head {text : String} (h : text.toList.head? ≠ some '\ufeff') (count : Nat) :
    (leading text count).toList = text.toList.take count := by
  rw [leading, String.toList_ofList, dropByteOrderMark_of_head h, Nat.sub_self, Nat.zero_add]

lemma toList_leading_of_mark {text : String} {body : List Char} (h : text.toList = '\ufeff' :: body)
    (count : Nat) : (leading text count).toList = '\ufeff' :: body.take count := by
  rw [leading, String.toList_ofList, h, dropByteOrderMark_mark, List.length_cons,
    Nat.add_sub_cancel_left, Nat.add_comm, List.take_succ_cons]

lemma exists_mark (text : String) : ∃ mark, (mark = [] ∨ mark = ['\ufeff']) ∧
    ∀ count, (leading text count).toList = mark ++ (dropByteOrderMark text.toList).take count := by
  by_cases hmark : text.toList.head? = some '\ufeff'
  · obtain ⟨body, hbody⟩ := List.head?_eq_some_iff.mp hmark
    refine ⟨['\ufeff'], .inr rfl, fun count => ?_⟩
    rw [toList_leading_of_mark hbody, hbody, dropByteOrderMark_mark]
    rfl
  · refine ⟨[], .inl rfl, fun count => ?_⟩
    rw [toList_leading_of_head hmark, dropByteOrderMark_of_head hmark, List.nil_append]

/-- With one character or more, the mark is the one of the text. -/
lemma dropByteOrderMark_leading {text : String} {count : Nat} (hcount : 0 < count)
    (hlength : count ≤ (dropByteOrderMark text.toList).length) (more : List Char) :
    dropByteOrderMark ((leading text count).toList ++ more) =
      (dropByteOrderMark text.toList).take count ++ more := by
  by_cases hmark : text.toList.head? = some '\ufeff'
  · obtain ⟨body, hbody⟩ := List.head?_eq_some_iff.mp hmark
    rw [toList_leading_of_mark hbody, hbody, dropByteOrderMark_mark, List.cons_append,
      dropByteOrderMark_mark]
  · rw [dropByteOrderMark_of_head hmark] at hlength
    rw [toList_leading_of_head hmark, dropByteOrderMark_of_head hmark]
    refine dropByteOrderMark_of_head ?_
    have hsome : text.toList.take count ≠ [] := by
      rw [← List.length_pos_iff, List.length_take]
      omega
    rwa [List.head?_append_of_ne_nil _ hsome, List.head?_take, if_neg (by omega)]

/-! ## Errors -/

lemma Position.before_append (front rest : List Char) :
    Position.before (front ++ rest) rest = Position.after front := by
  simp [Position.before]

lemma parse_eq_error {text : String} {e : ParseError} :
    parse text = .error e ↔
      ∃ failure, readDocument (dropByteOrderMark text.toList) = .error failure ∧
        e = ⟨.before (dropByteOrderMark text.toList) failure.rest, failure.fault⟩ := by
  simp only [parse]
  cases readDocument (dropByteOrderMark text.toList) with
  | ok value => simp
  | error failure => simp [eq_comm]

section Spot

variable {text : String} {failure : Failure} {front : List Char}
  (hread : readDocument (dropByteOrderMark text.toList) = .error failure)
  (hfront : dropByteOrderMark text.toList = front ++ failure.rest)
include hread hfront

/-- What stands before the spot is the beginning of a text that is read. -/
lemma exists_parse_leading (hfault : failure.fault ≠ .invalidCodePoint) :
    ∃ added value, parse (leading text front.length ++ added) = .ok value := by
  obtain ⟨front', hfront', added, value, hdocument⟩ := exists_completion hread hfault
  obtain rfl : front' = front := List.append_cancel_right (hfront'.symm.trans hfront)
  obtain ⟨mark, hmark, hleading⟩ := exists_mark text
  refine ⟨String.ofList added, value, parse_of_documentText ?_⟩
  rw [documentText_dropByteOrderMark_iff]
  refine ⟨mark, front' ++ added, hmark, ?_, hdocument⟩
  rw [String.toList_append, hleading, hfront, List.take_left, String.toList_ofList,
    List.append_assoc]

/-- With the two characters from the spot on, the error is there. -/
lemma parse_leading_eq_error (hfault : failure.fault ≠ .unterminatedComment)
    (hlength : front.length + 2 ≤ (dropByteOrderMark text.toList).length) (more : String) :
    parse (leading text (front.length + 2) ++ more) =
      .error ⟨Position.after front, failure.fault⟩ := by
  obtain ⟨front', hfront', hlocal⟩ := readDocument_local hread
  obtain rfl : front' = front := List.append_cancel_right (hfront'.symm.trans hfront)
  have hbody : dropByteOrderMark (leading text (front'.length + 2) ++ more).toList =
      front' ++ (failure.rest.take 2 ++ more.toList) := by
    rw [String.toList_append, dropByteOrderMark_leading (by omega) hlength, hfront,
      List.take_append, List.take_of_length_le (by omega), Nat.add_sub_cancel_left,
      List.append_assoc]
  have htake : (failure.rest.take 2 ++ more.toList).take 2 = failure.rest.take 2 := by
    rw [hfront, List.length_append] at hlength
    rw [List.take_append_of_le_length (by rw [List.length_take]; omega), List.take_take, min_self]
  refine parse_eq_error.mpr ⟨⟨failure.fault, failure.rest.take 2 ++ more.toList⟩, ?_, ?_⟩
  · rw [hbody]
    exact hlocal hfault _ htake
  · rw [hbody, Position.before_append]

end Spot

/-- A parse error names one spot of the text.  The text before it is the beginning of a text that is
read, unless a code point is not one, and every text that has two characters more in common with this
one has the same error, unless a comment has no end. -/
theorem errors_are_at_the_first_bad_spot {text : String} {e : ParseError}
    (h : parse text = .error e) :
    ∃ spot ≤ (dropByteOrderMark text.toList).length,
      (∀ other ≤ (dropByteOrderMark text.toList).length,
        Position.after ((dropByteOrderMark text.toList).take other) = e.position ↔ other = spot) ∧
      (e.fault ≠ .invalidCodePoint →
        ∃ added value, parse (leading text spot ++ added) = .ok value) ∧
      (e.fault ≠ .unterminatedComment → spot + 2 ≤ (dropByteOrderMark text.toList).length →
        ∀ more, parse (leading text (spot + 2) ++ more) = .error e) := by
  obtain ⟨failure, hread, rfl⟩ := parse_eq_error.mp h
  obtain ⟨front, hfront, -⟩ := readDocument_local hread
  have hspot : front.length ≤ (dropByteOrderMark text.toList).length := by
    rw [hfront, List.length_append]
    omega
  have hposition : Position.before (dropByteOrderMark text.toList) failure.rest =
      Position.after front := by
    rw [hfront, Position.before_append]
  have htake : (dropByteOrderMark text.toList).take front.length = front := by
    rw [hfront, List.take_left]
  rw [hposition]
  refine ⟨front.length, hspot, ?_, exists_parse_leading hread hfront,
    parse_leading_eq_error hread hfront⟩
  intro other hother
  constructor
  · intro hsame
    rw [← htake] at hsame
    exact Position.eq_of_after_take_eq hspot hother hsame
  · rintro rfl
    rw [htake]

/-- The equals sign is missing, but this is not known at the slash, which may begin a comment. -/
theorem errors_are_at_the_first_bad_spot_slash :
    parse ("\ufeff\x7ba\n /" ++ "/\n=b;\x7d") = .ok (.dictionary [("a", .string "b")]) ∧
    ∃ e, parse "\ufeff\x7ba\n /x" = .error e ∧ e.position = ⟨2, 2⟩ ∧
      (∃ added value, parse ("\ufeff\x7ba\n " ++ added) = .ok value) ∧
      ∀ more, parse ("\ufeff\x7ba\n /x" ++ more) = .error e := by
  have hcomment : parse ("\ufeff\x7ba\n /" ++ "/\n=b;\x7d") =
      .ok (.dictionary [("a", .string "b")]) := by decide +kernel
  have hparse : parse "\ufeff\x7ba\n /x" =
      .error ⟨⟨2, 2⟩, .expectedCharacter '=' (some '/')⟩ := by decide +kernel
  obtain ⟨spot, -, hposition, hbefore, hafter⟩ := errors_are_at_the_first_bad_spot hparse
  obtain rfl : 4 = spot := (hposition 4 (by decide)).mp (by decide)
  have hfour : leading "\ufeff\x7ba\n /x" 4 = "\ufeff\x7ba\n " := by decide
  have hsix : leading "\ufeff\x7ba\n /x" 6 = "\ufeff\x7ba\n /x" := by decide
  rw [hfour] at hbefore
  rw [hsix] at hafter
  exact ⟨hcomment, _, hparse, rfl, hbefore (by decide), hafter (by decide) (by decide)⟩

end XcodeProject.PropertyList
