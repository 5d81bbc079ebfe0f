import Mathlib
import XcodeProject.Proofs.PropertyList.Grammar

/-!
# What the notation allows, the reader accepts

A text that the grammar derives is read, and with the value that the derivation has
(`parse_of_documentText`).  The reader is deterministic where a derivation is not, so for each
production the question is what the reader sees next: it passes over as much trivia as it can, and
the lemmas on first characters (`StringText.head`, `ValueText.head`) say that it stops at the token
which the derivation has there.

The readers of values recurse on a bound.  `readValue_of_valueText` and its two companions say how
large a bound serves: twice the number of characters that the derivation takes.
-/

namespace XcodeProject.PropertyList

open XcodeProject.Text

/-! ## Trivia -/

lemma skipTrivia_space {c : Char} (hspace : isWhiteSpace c = true) (text : List Char) :
    skipTrivia (c :: text) = skipTrivia text := by
  rw [skipTrivia.eq_def]
  simp only [hspace, if_true]

lemma skipLine_append {body : List Char} (hbody : '\n' ∉ body) (text : List Char) :
    skipLine (body ++ '\n' :: text) = skipTrivia text := by
  induction body with
  | nil => simp [skipLine]
  | cons c body ih =>
    obtain ⟨hc, hbody⟩ := not_or.mp (mt List.mem_cons.mpr hbody)
    rw [List.cons_append, skipLine, if_neg (Ne.symm hc), ih hbody]

lemma skipLine_last {body : List Char} (hbody : '\n' ∉ body) : skipLine body = .ok [] := by
  induction body with
  | nil => simp [skipLine]
  | cons c body ih =>
    obtain ⟨hc, hbody⟩ := not_or.mp (mt List.mem_cons.mpr hbody)
    rw [skipLine, if_neg (Ne.symm hc), ih hbody]

/-- A comment goes on at every character of its body, since no end of a comment is in there and the
last character of the body makes none with the end itself. -/
lemma skipBlock_append {body : List Char} (hbody : ¬ commentEnd <:+: body)
    (start text : List Char) :
    skipBlock start (body ++ '*' :: '/' :: text) = skipTrivia text := by
  induction body with
  | nil => simp [skipBlock]
  | cons c body ih =>
    have hgoesOn : ∀ more, c = '*' → body ++ '*' :: '/' :: text = '/' :: more → False := by
      intro more hc hmore
      cases body with
      | nil => simp at hmore
      | cons d body =>
        have hd : d = '/' := (List.cons.inj hmore).1
        exact hbody ⟨[], body, by simp [commentEnd, hc, hd]⟩
    rw [List.cons_append, skipBlock.eq_3 start c _ hgoesOn]
    refine ih fun hinfix => hbody ?_
    exact hinfix.trans (List.suffix_cons c body).isInfix

lemma skipTrivia_lineComment (text : List Char) :
    skipTrivia ('/' :: '/' :: text) = skipLine text := by
  rw [skipTrivia, if_neg (by decide), if_pos rfl]

lemma skipTrivia_blockComment (text : List Char) :
    skipTrivia ('/' :: '*' :: text) = skipBlock ('/' :: '*' :: text) text := by
  rw [skipTrivia, if_neg (by decide), if_pos rfl]

/-- The reader goes over whatever trivia a derivation goes over, and perhaps over more. -/
lemma skipTrivia_of_trivia {text rest : List Char} (h : Trivia text rest) :
    skipTrivia text = skipTrivia rest := by
  induction h with
  | none => rfl
  | space hspace _ ih => rw [skipTrivia_space hspace, ih]
  | line hbody _ ih => rw [skipTrivia_lineComment, skipLine_append hbody, ih]
  | lastLine hbody => rw [skipTrivia_lineComment, skipLine_last hbody, skipTrivia]
  | block hbody _ ih => rw [skipTrivia_blockComment, skipBlock_append hbody, ih]

lemma Trivia.length_le {text rest : List Char} (h : Trivia text rest) :
    rest.length ≤ text.length := by
  induction h with
  | none => exact le_refl _
  | space => simp only [List.length_cons]; omega
  | line => simp only [List.length_cons, List.length_append]; omega
  | lastLine => simp
  | block => simp only [List.length_cons, List.length_append]; omega

/-! ## First characters -/

/-- The reader stops at a text that begins with neither white space nor a comment. -/
lemma skipTrivia_stop {c : Char} {text : List Char} (hspace : isWhiteSpace c = false)
    (hcomment : ¬ BeginsComment (c :: text)) : skipTrivia (c :: text) = .ok (c :: text) := by
  rw [skipTrivia.eq_def]
  simp only [hspace, Bool.false_eq_true, if_false]
  by_cases hc : c = '/'
  · subst hc
    rw [if_pos rfl]
    split
    · exact absurd (.inl ⟨_, rfl⟩) hcomment
    · exact absurd (.inr ⟨_, rfl⟩) hcomment
    · rfl
  · rw [if_neg hc]

lemma not_beginsComment_of_ne {c : Char} (h : c ≠ '/') (text : List Char) :
    ¬ BeginsComment (c :: text) := by
  rintro (⟨more, hmore⟩ | ⟨more, hmore⟩)
  · exact h (List.cons.inj hmore).1.symm
  · exact h (List.cons.inj hmore).1.symm

lemma isBare_iff (c : Char) : isBare c = true ↔
    (((65 ≤ c.toNat ∧ c.toNat ≤ 90) ∨ (97 ≤ c.toNat ∧ c.toNat ≤ 122)) ∨
      (48 ≤ c.toNat ∧ c.toNat ≤ 57)) ∨ c ∈ ['_', '$', '+', '/', ':', '.', '-'] := by
  simp only [isBare, Char.isAlphanum, Char.isAlpha, Char.isUpper, Char.isLower, Char.isDigit,
    Bool.or_eq_true, Bool.and_eq_true, decide_eq_true_eq, UInt32.le_iff_toNat_le, ge_iff_le]
  exact Iff.rfl

lemma isWhiteSpace_of_isBare {c : Char} (h : isBare c = true) : isWhiteSpace c = false := by
  simp only [isBare_iff, List.mem_cons, List.not_mem_nil, or_false] at h
  simp only [isWhiteSpace, whiteSpaceRanges, List.any_cons, List.any_nil, Bool.or_false,
    Bool.or_eq_false_iff, Bool.and_eq_false_iff, decide_eq_false_iff_not]
  rcases h with ((h | h) | h) | rfl | rfl | rfl | rfl | rfl | rfl | rfl
  · omega
  · omega
  · omega
  all_goals decide

/-- A string begins with a quote or with a character of a bare string. -/
lemma StringText.head {text rest : List Char} {content : String}
    (h : StringText text content rest) :
    ∃ c more, text = c :: more ∧ (c = '"' ∨ c = '\x27' ∨ isBare c = true) ∧
      ¬ BeginsComment text := by
  cases h with
  | quoted hquote more =>
    refine ⟨_, _, rfl, ?_, not_beginsComment_of_ne ?_ _⟩
    · rcases hquote with hquote | hquote
      · exact .inl hquote
      · exact .inr (.inl hquote)
    · rcases hquote with rfl | rfl <;> decide
  | @bare word _ hsome hword hlongest hcomment =>
    cases word with
    | nil => exact absurd rfl hsome
    | cons c word =>
      exact ⟨c, word ++ rest, rfl, .inr (.inr (hword c (List.mem_cons_self ..))), hcomment⟩

/-- A value begins with a character that is neither white space nor the end of an array, and not
with a comment. -/
lemma ValueText.head {text rest : List Char} {value : Value} (h : ValueText text value rest) :
    ∃ c more, text = c :: more ∧ isWhiteSpace c = false ∧ c ≠ ')' ∧ ¬ BeginsComment text := by
  cases h with
  | string more =>
    obtain ⟨c, text', rfl, hc, hcomment⟩ := more.head
    refine ⟨c, text', rfl, ?_, ?_, hcomment⟩
    · rcases hc with rfl | rfl | hc
      · decide
      · decide
      · exact isWhiteSpace_of_isBare hc
    · rintro rfl
      revert hc
      decide
  | array => exact ⟨_, _, rfl, by decide, by decide, not_beginsComment_of_ne (by decide) _⟩
  | dictionary => exact ⟨_, _, rfl, by decide, by decide, not_beginsComment_of_ne (by decide) _⟩

lemma skipTrivia_stringText {text start rest : List Char} {content : String}
    (before : Trivia text start) (h : StringText start content rest) :
    skipTrivia text = .ok start := by
  rw [skipTrivia_of_trivia before]
  obtain ⟨c, more, rfl, hc, hcomment⟩ := h.head
  refine skipTrivia_stop ?_ hcomment
  rcases hc with rfl | rfl | hc
  · decide
  · decide
  · exact isWhiteSpace_of_isBare hc

lemma skipTrivia_valueText {text start rest : List Char} {value : Value}
    (before : Trivia text start) (h : ValueText start value rest) :
    skipTrivia text = .ok start := by
  rw [skipTrivia_of_trivia before]
  obtain ⟨c, more, rfl, hspace, -, hcomment⟩ := h.head
  exact skipTrivia_stop hspace hcomment

/-- The reader stops at a punctuation mark. -/
lemma skipTrivia_mark {text rest : List Char} {c : Char} (before : Trivia text (c :: rest))
    (hspace : isWhiteSpace c = false) (hslash : c ≠ '/') :
    skipTrivia text = .ok (c :: rest) := by
  rw [skipTrivia_of_trivia before]
  exact skipTrivia_stop hspace (not_beginsComment_of_ne hslash _)

/-! ## Strings -/

lemma QuotedText.length_lt {quote : Char} {text content rest : List Char}
    (h : QuotedText quote text content rest) : rest.length < text.length := by
  induction h with
  | close => simp
  | plain _ _ _ ih => simp only [List.length_cons]; omega
  | escaped _ _ _ ih => simp only [List.length_cons]; omega
  | codePoint _ _ _ _ ih => simp only [List.length_cons, List.length_append]; omega
  | octal _ _ _ _ _ ih => simp only [List.length_cons, List.length_append]; omega

lemma StringText.length_lt {text rest : List Char} {content : String}
    (h : StringText text content rest) : rest.length < text.length := by
  cases h with
  | quoted _ more => simpa using Nat.lt_succ_of_lt more.length_lt
  | bare hsome => simpa using List.length_pos_iff.mpr hsome

lemma ofDigits_nil (base value : Nat) : ofDigits base value [] = value :=
  rfl

lemma ofDigits_cons (base value d : Nat) (digits : List Nat) :
    ofDigits base value (d :: digits) = ofDigits base (base * value + d) digits :=
  rfl

/-- An octal escape ends where no more digits may come or none does. -/
lemma readQuoted_octal_stop (quote : Char) {digits value : Nat} {text : List Char}
    (hstop : digits = 0 ∨ NotAhead (fun c => (octalDigit? c).isSome) text) :
    readQuoted quote (.octal digits value) text =
      push (Char.ofNat value) (readQuoted quote .none text) := by
  cases text with
  | nil => rfl
  | cons c text =>
    rcases hstop with rfl | hstop
    · simp [readQuoted]
    · have hnone : octalDigit? c = none := by simpa using hstop c (by simp)
      simp [readQuoted, hnone]

/-- The digits of an octal escape that has begun, through the last one. -/
lemma readQuoted_octal_append (quote : Char) {digits : List Char} {values : List Nat}
    {text : List Char} {room : Nat} (hdigits : digits.map octalDigit? = values.map some)
    (hroom : values.length ≤ room)
    (hlongest : values.length = room ∨ NotAhead (fun c => (octalDigit? c).isSome) text)
    (value : Nat) :
    readQuoted quote (.octal room value) (digits ++ text) =
      push (Char.ofNat (ofDigits 8 value values)) (readQuoted quote .none text) := by
  induction digits generalizing values room value with
  | nil =>
    obtain rfl : values = [] := by simpa using hdigits.symm
    refine readQuoted_octal_stop quote ?_
    rcases hlongest with hlength | hahead
    · exact .inl hlength.symm
    · exact .inr hahead
  | cons c digits ih =>
    obtain ⟨d, values, rfl⟩ : ∃ d more, values = d :: more := by
      cases values with
      | nil => simp at hdigits
      | cons d more => exact ⟨d, more, rfl⟩
    simp only [List.map_cons, List.cons.injEq] at hdigits
    obtain ⟨hc, hdigits⟩ := hdigits
    obtain ⟨more, rfl⟩ : ∃ more, room = more + 1 := ⟨room - 1, by
      simp only [List.length_cons] at hroom
      omega⟩
    simp only [List.length_cons, Nat.add_le_add_iff_right, Nat.add_right_cancel_iff]
      at hroom hlongest
    rw [List.cons_append, readQuoted.eq_def]
    simp only [hc, ofDigits_cons]
    exact ih hdigits hroom hlongest (8 * value + d)

/-- The digits of a code point that has begun, through the last one. -/
lemma readQuoted_codePoint_append (quote : Char) {digits : List Char} {values : List Nat}
    {text : List Char} {room : Nat} (hdigits : digits.map hexDigit? = values.map some)
    (hroom : values.length = room + 1) (value : Nat)
    (hvalid : (ofDigits 16 value values).isValidChar) :
    readQuoted quote (.codePoint room value) (digits ++ text) =
      push (Char.ofNat (ofDigits 16 value values)) (readQuoted quote .none text) := by
  induction digits generalizing values room value with
  | nil =>
    obtain rfl : values = [] := by simpa using hdigits.symm
    exact absurd hroom (by simp)
  | cons c digits ih =>
    obtain ⟨d, values, rfl⟩ : ∃ d more, values = d :: more := by
      cases values with
      | nil => simp at hroom
      | cons d more => exact ⟨d, more, rfl⟩
    simp only [List.map_cons, List.cons.injEq] at hdigits
    obtain ⟨hc, hdigits⟩ := hdigits
    rw [List.length_cons, Nat.add_right_cancel_iff] at hroom
    rw [List.cons_append, readQuoted.eq_def]
    cases room with
    | zero =>
      obtain rfl : values = [] := List.length_eq_zero_iff.mp hroom
      obtain rfl : digits = [] := by simpa using hdigits
      rw [ofDigits_cons, ofDigits_nil] at hvalid ⊢
      simp only [hc, hvalid, if_true, List.nil_append]
    | succ room =>
      rw [ofDigits_cons] at hvalid ⊢
      simp only [hc]
      exact ih hdigits hroom (16 * value + d) hvalid

lemma readQuoted_of_quotedText {quote : Char} {text content rest : List Char}
    (hquote : quote ≠ '\\') (h : QuotedText quote text content rest) :
    readQuoted quote .none text = .ok (content, rest) := by
  induction h with
  | close rest => simp [readQuoted, readOrdinary]
  | plain hc hslash _ ih => simp [readQuoted, readOrdinary, hc, hslash, ih, push]
  | escaped hcode hoctal _ ih =>
    simp [readQuoted, readOrdinary, Ne.symm hquote, hcode, hoctal, ih, push]
  | @codePoint digits values text content rest hdigits hfour hvalid _ ih =>
    have hstarted : readQuoted quote .none ('\\' :: 'U' :: (digits ++ text)) =
        readQuoted quote (.codePoint 3 0) (digits ++ text) := by
      simp [readQuoted, readOrdinary, Ne.symm hquote]
    rw [hstarted, readQuoted_codePoint_append quote hdigits hfour 0 hvalid, ih, push]
  | @octal digits values text content rest hdigits hsome hthree hlongest _ ih =>
    obtain ⟨d, values, rfl⟩ := List.exists_cons_of_ne_nil hsome
    obtain ⟨c, digits, rfl⟩ : ∃ c more, digits = c :: more := by
      cases digits with
      | nil => simp at hdigits
      | cons c more => exact ⟨c, more, rfl⟩
    simp only [List.map_cons, List.cons.injEq] at hdigits
    simp only [List.length_cons, Nat.reduceEqDiff] at hthree hlongest
    have hcode : c ≠ 'U' := by
      rintro rfl
      exact Option.some_ne_none d hdigits.1.symm
    have hstarted : readQuoted quote .none ('\\' :: (c :: digits ++ text)) =
        readQuoted quote (.octal 2 d) (digits ++ text) := by
      simp [readQuoted, readOrdinary, Ne.symm hquote, hcode, hdigits.1]
    have hroom : values.length ≤ 2 := Nat.le_of_succ_le_succ hthree
    rw [hstarted, readQuoted_octal_append quote hdigits.2 hroom hlongest, ih, push, ofDigits_cons,
      Nat.mul_zero, Nat.zero_add]

lemma readString_bare {word rest : List Char} (hsome : word ≠ [])
    (hword : ∀ c ∈ word, isBare c = true) (hlongest : NotAhead isBare rest) :
    readString (word ++ rest) = .ok (String.ofList word, rest) := by
  obtain ⟨c, word, rfl⟩ := List.exists_cons_of_ne_nil hsome
  have hc : isBare c = true := hword c (List.mem_cons_self ..)
  have hquote : ¬ (c = '"' ∨ c = '\x27') := by
    rintro (rfl | rfl)
    · exact absurd hc (by decide)
    · exact absurd hc (by decide)
  have htail : ∀ d ∈ word, isBare d = true := fun d hd => hword d (List.mem_cons_of_mem _ hd)
  have hstop : rest.takeWhile isBare = [] ∧ rest.dropWhile isBare = rest := by
    cases rest with
    | nil => simp
    | cons d rest => simp [hlongest d (by simp)]
  rw [List.cons_append, readString, if_neg hquote, if_pos hc, List.takeWhile_append_of_pos htail,
    List.dropWhile_append_of_pos htail, hstop.1, hstop.2, List.append_nil]

lemma readString_of_stringText {text rest : List Char} {content : String}
    (h : StringText text content rest) : readString text = .ok (content, rest) := by
  cases h with
  | @quoted quote text content _ hquote more =>
    have hslash : quote ≠ '\\' := by
      rintro rfl
      exact absurd hquote (by decide)
    simp only [readString, if_pos hquote, readQuoted_of_quotedText hslash more]
  | bare hsome hword hlongest => exact readString_bare hsome hword hlongest

/-! ## Values -/

mutual

lemma ValueText.length_lt {text rest : List Char} {value : Value} :
    ValueText text value rest → rest.length < text.length
  | .string more => more.length_lt
  | .array more => Nat.lt_succ_of_lt more.length_lt
  | .dictionary more => Nat.lt_succ_of_lt more.length_lt

lemma ItemsText.length_lt {text rest : List Char} {items : List Value} :
    ItemsText text items rest → rest.length < text.length
  | .close before => before.length_le
  | .last before value after => by
    have hvalue := value.length_lt
    have hbefore := before.length_le
    have hafter := after.length_le
    simp only [List.length_cons] at hafter
    omega
  | .cons before value after others => by
    have hvalue := value.length_lt
    have hothers := others.length_lt
    have hbefore := before.length_le
    have hafter := after.length_le
    simp only [List.length_cons] at hafter
    omega

lemma EntriesText.length_lt {text rest : List Char} {entries : List (String × Value)} :
    EntriesText text entries rest → rest.length < text.length
  | .close before => before.length_le
  | .cons before name afterName beforeValue content afterValue others => by
    have hname := name.length_lt
    have hcontent := content.length_lt
    have hothers := others.length_lt
    have hbefore := before.length_le
    have hafterName := afterName.length_le
    have hbeforeValue := beforeValue.length_le
    have hafterValue := afterValue.length_le
    simp only [List.length_cons] at hafterName hafterValue
    omega

end

lemma readValue_string {c : Char} {text rest : List Char} {content : String} {bound : Nat}
    (hread : readString (c :: text) = .ok (content, rest)) (hbrace : c ≠ '{')
    (hparen : c ≠ '(') :
    readValue (bound + 1) (c :: text) = .ok (.string content, rest) := by
  rw [readValue, if_neg hbrace, if_neg hparen, hread]
  rfl

lemma readItems_close {text rest : List Char} {bound : Nat}
    (hskip : skipTrivia text = .ok (')' :: rest)) :
    readItems (bound + 1) text = .ok ([], rest) := by
  rw [readItems, hskip]
  rfl

/-- One item read, what the reader of items does depends on the mark that follows. -/
lemma readItems_item {text start stop more : List Char} {item : Value} {bound : Nat} {mark : Char}
    (hskip : skipTrivia text = .ok start) (hhead : start.head? ≠ some ')')
    (hvalue : readValue bound start = .ok (item, stop))
    (hafter : skipTrivia stop = .ok (mark :: more)) :
    readItems (bound + 1) text =
      if mark = ',' then (readItems bound more).map fun (items, rest) => (item :: items, rest)
      else if mark = ')' then .ok ([item], more)
      else .error ⟨.expectedSeparator mark, mark :: more⟩ := by
  rw [readItems, hskip]
  simp only [bind, Except.bind, if_neg hhead, hvalue, hafter]
  split
  · cases readItems bound more <;> rfl
  · rfl

lemma readEntries_close {text rest : List Char} {bound : Nat} {read : Dict Value}
    (hskip : skipTrivia text = .ok ('}' :: rest)) :
    readEntries (bound + 1) read text = .ok (read, rest) := by
  rw [readEntries, hskip]
  rfl

lemma readEntries_entry {text start keyStop equals valueStart valueStop more : List Char}
    {key : String} {value : Value} {bound : Nat} {read : Dict Value}
    (hskip : skipTrivia text = .ok start) (hhead : start.head? ≠ some '}')
    (hname : readString start = .ok (key, keyStop))
    (hequals : skipTrivia keyStop = .ok ('=' :: equals))
    (hstart : skipTrivia equals = .ok valueStart)
    (hvalue : readValue bound valueStart = .ok (value, valueStop))
    (hafter : skipTrivia valueStop = .ok (';' :: more)) :
    readEntries (bound + 1) read text = readEntries bound (Dict.insert read key value) more := by
  rw [readEntries, hskip]
  simp only [bind, Except.bind, if_neg hhead, hname, hequals, hstart, hvalue, hafter, expect,
    if_true]

/-- No string begins with a mark that ends an array or a dictionary, or opens one. -/
lemma StringText.head_ne {text rest : List Char} {content : String}
    (h : StringText text content rest) (mark : Char) (hmark : mark ∈ ['{', '}', '(', ')']) :
    text.head? ≠ some mark := by
  obtain ⟨c, more, rfl, hc, -⟩ := h.head
  rw [List.head?_cons]
  rintro ⟨rfl⟩
  simp only [List.mem_cons, List.not_mem_nil, or_false] at hmark
  rcases hmark with rfl | rfl | rfl | rfl
  all_goals exact absurd hc (by decide)

mutual

/-- A bound of twice the characters that a value takes is enough to read it. -/
theorem readValue_of_valueText {text rest : List Char} {value : Value} :
    ValueText text value rest → ∀ (bound : Nat), 2 * text.length ≤ bound + 2 * rest.length →
      readValue bound text = .ok (value, rest)
  | .string more, bound, hbound => by
    have hlength := more.length_lt
    obtain ⟨bound, rfl⟩ : ∃ n, bound = n + 1 := ⟨bound - 1, by omega⟩
    obtain ⟨c, text, rfl, -, -⟩ := more.head
    refine readValue_string (readString_of_stringText more) ?_ ?_
    · rintro rfl
      exact more.head_ne '{' (by decide) rfl
    · rintro rfl
      exact more.head_ne '(' (by decide) rfl
  | .array more, bound, hbound => by
    have hlength := more.length_lt
    simp only [List.length_cons] at hbound
    obtain ⟨bound, rfl⟩ : ∃ n, bound = n + 1 := ⟨bound - 1, by omega⟩
    have hitems := readItems_of_itemsText more bound (by omega)
    rw [readValue, if_neg (by decide), if_pos rfl, hitems]
    rfl
  | .dictionary more, bound, hbound => by
    have hlength := more.length_lt
    simp only [List.length_cons] at hbound
    obtain ⟨bound, rfl⟩ : ∃ n, bound = n + 1 := ⟨bound - 1, by omega⟩
    have hentries := readEntries_of_entriesText more bound [] (by omega)
    rw [readValue, if_pos rfl, hentries]
    rfl

theorem readItems_of_itemsText {text rest : List Char} {items : List Value} :
    ItemsText text items rest → ∀ (bound : Nat), 2 * text.length ≤ bound + 2 * rest.length →
      readItems bound text = .ok (items, rest)
  | .close before, bound, hbound => by
    have hbefore := before.length_le
    simp only [List.length_cons] at hbefore
    obtain ⟨bound, rfl⟩ : ∃ n, bound = n + 1 := ⟨bound - 1, by omega⟩
    exact readItems_close (skipTrivia_mark before (by decide) (by decide))
  | .last before value after, bound, hbound => by
    have hvalue := value.length_lt
    have hbefore := before.length_le
    have hafter := after.length_le
    simp only [List.length_cons] at hafter
    obtain ⟨bound, rfl⟩ : ∃ n, bound = n + 1 := ⟨bound - 1, by omega⟩
    obtain ⟨c, more, hstart, -, hparen, -⟩ := value.head
    have hread := readValue_of_valueText value bound (by omega)
    rw [readItems_item (skipTrivia_valueText before value) (by simpa [hstart] using hparen)
      hread (skipTrivia_mark after (by decide) (by decide)),
      if_neg (by decide), if_pos rfl]
  | .cons before value after others, bound, hbound => by
    have hvalue := value.length_lt
    have hothers := others.length_lt
    have hbefore := before.length_le
    have hafter := after.length_le
    simp only [List.length_cons] at hafter
    obtain ⟨bound, rfl⟩ : ∃ n, bound = n + 1 := ⟨bound - 1, by omega⟩
    obtain ⟨c, more, hstart, -, hparen, -⟩ := value.head
    have hread := readValue_of_valueText value bound (by omega)
    rw [readItems_item (skipTrivia_valueText before value) (by simpa [hstart] using hparen)
      hread (skipTrivia_mark after (by decide) (by decide)),
      if_pos rfl, readItems_of_itemsText others bound (by omega)]
    rfl

theorem readEntries_of_entriesText {text rest : List Char} {entries : List (String × Value)} :
    EntriesText text entries rest → ∀ (bound : Nat) (read : Dict Value),
      2 * text.length ≤ bound + 2 * rest.length →
      readEntries bound read text =
        .ok (entries.foldl (fun d entry => Dict.insert d entry.1 entry.2) read, rest)
  | .close before, bound, read, hbound => by
    have hbefore := before.length_le
    simp only [List.length_cons] at hbefore
    obtain ⟨bound, rfl⟩ : ∃ n, bound = n + 1 := ⟨bound - 1, by omega⟩
    exact readEntries_close (skipTrivia_mark before (by decide) (by decide))
  | .cons before name afterName beforeValue content afterValue others, bound, read, hbound => by
    have hname := name.length_lt
    have hcontent := content.length_lt
    have hothers := others.length_lt
    have hbefore := before.length_le
    have hafterName := afterName.length_le
    have hbeforeValue := beforeValue.length_le
    have hafterValue := afterValue.length_le
    simp only [List.length_cons] at hafterName hafterValue
    obtain ⟨bound, rfl⟩ : ∃ n, bound = n + 1 := ⟨bound - 1, by omega⟩
    rw [readEntries_entry (skipTrivia_stringText before name) (name.head_ne _ (by decide))
      (readString_of_stringText name) (skipTrivia_mark afterName (by decide) (by decide))
      (skipTrivia_valueText beforeValue content) (readValue_of_valueText content bound (by omega))
      (skipTrivia_mark afterValue (by decide) (by decide)),
      readEntries_of_entriesText others bound _ (by omega), List.foldl_cons]

end

/-! ## Whole texts -/

theorem readDocument_of_documentText {text : List Char} {value : Value}
    (h : DocumentText text value) : readDocument text = .ok value := by
  obtain ⟨start, stop, hbefore, hvalue, hafter⟩ := h
  have hread := readValue_of_valueText hvalue (2 * start.length + 1) (by omega)
  have hend : skipTrivia stop = .ok [] := by rw [skipTrivia_of_trivia hafter, skipTrivia]
  rw [readDocument, skipTrivia_valueText hbefore hvalue]
  simp only [bind, Except.bind, hread, hend]
  rfl

/-- A text that the grammar derives, a byte order mark in front or not, is read as the value that it
denotes. -/
theorem parse_of_documentText {text : String} {value : Value}
    (h : DocumentText (dropByteOrderMark text.toList) value) : parse text = .ok value := by
  simp only [parse, readDocument_of_documentText h]

end XcodeProject.PropertyList
