import Mathlib
import XcodeProject.Proofs.PropertyList.ReaderSound

/-!
# How far the reader looks ahead

What a reader comes to depends on the text it goes over and on two characters more, which it needs to
tell a slash from the beginning of a comment.  So the rest of the text can be exchanged for another
one with the same two characters in front: the outcome is the same, with the other text left
(`LocalAt`).  This holds for readings that succeed and for those that fail, with one exception.  That
a comment has no end is known at the end of the text only, while the failure is put where the comment
begins.

Readers are put together from readers, and what is put together from local readers is local.  The
bound with which values are read is a matter of the whole text, though, so it is shown that it does
not count as long as it is large enough (`BoundCounts`).
-/

namespace XcodeProject.PropertyList

open XcodeProject.Text

/-! ## Outcomes and what they leave -/

section Local

variable {α β : Type}

/-- The text that a reading leaves. -/
def left : Except Failure (α × List Char) → List Char
  | .ok (_, rest) => rest
  | .error failure => failure.rest

/-- The same outcome with another text left. -/
def leaving (rest : List Char) : Except Failure (α × List Char) → Except Failure (α × List Char)
  | .ok (made, _) => .ok (made, rest)
  | .error failure => .error ⟨failure.fault, rest⟩

/-- The outcome is not that a comment has no end. -/
def Conclusive (outcome : Except Failure (α × List Char)) : Prop :=
  ∀ failure, outcome = .error failure → failure.fault ≠ .unterminatedComment

/-- What the reader makes of a text depends on the part it goes over and the next two characters. -/
def LocalAt (reader : List Char → Except Failure (α × List Char)) (text : List Char) : Prop :=
  ∀ outcome, reader text = outcome → ∃ front, text = front ++ left outcome ∧
    (Conclusive outcome → ∀ rest, rest.take 2 = (left outcome).take 2 →
      reader (front ++ rest) = leaving rest outcome)

variable {reader reader' : List Char → Except Failure (α × List Char)} {text : List Char}

lemma take_append_congr (front : List Char) {rest rest' : List Char}
    (h : rest'.take 2 = rest.take 2) : (front ++ rest').take 2 = (front ++ rest).take 2 := by
  have htake : rest'.take (2 - front.length) = rest.take (2 - front.length) := by
    have hmin : min (2 - front.length) 2 = 2 - front.length := by omega
    rw [← hmin, ← List.take_take, ← List.take_take, h]
  rw [List.take_append, List.take_append, htake]

lemma head?_eq_of_take {rest rest' : List Char} (h : rest'.take 2 = rest.take 2) :
    rest'.head? = rest.head? := by
  have hhead := congrArg List.head? h
  rwa [List.head?_take, List.head?_take, if_neg (by decide), if_neg (by decide)] at hhead

lemma leaving_left (outcome : Except Failure (α × List Char)) :
    leaving (left outcome) outcome = outcome := by
  cases outcome <;> rfl

namespace LocalAt

lemma congr (heq : ∀ text, reader text = reader' text) (h : LocalAt reader' text) :
    LocalAt reader text := by
  obtain rfl : reader = reader' := funext heq
  exact h

/-- Two readers that do the same for texts with one first character. -/
lemma of_first {c : Char} (heq : ∀ rest, reader (c :: rest) = reader' (c :: rest))
    (h : LocalAt reader' (c :: text)) : LocalAt reader (c :: text) := by
  intro outcome hread
  rw [heq] at hread
  obtain ⟨front, htext, hrest⟩ := h outcome hread
  refine ⟨front, htext, fun hconclusive rest htake => ?_⟩
  have hahead := take_append_congr front htake
  rw [← htext] at hahead
  obtain ⟨more, hmore⟩ := List.head?_eq_some_iff.mp (head?_eq_of_take hahead)
  rw [← hrest hconclusive rest htake, hmore, heq]

/-- At the end of a text there is nothing to exchange. -/
lemma nil (h : left (reader []) = []) : LocalAt reader [] := by
  rintro outcome rfl
  refine ⟨[], by rw [h, List.append_nil], fun _ rest htake => ?_⟩
  rw [h] at htake
  obtain rfl : rest = [] := by simpa using htake
  have hsame := leaving_left (reader [])
  rw [h] at hsame
  exact hsame.symm

/-- The reader goes over one character and does what another one does. -/
lemma cons {c : Char} (heq : ∀ rest, reader (c :: rest) = reader' rest) (h : LocalAt reader' text) :
    LocalAt reader (c :: text) := by
  intro outcome hread
  rw [heq] at hread
  obtain ⟨front, htext, hrest⟩ := h outcome hread
  refine ⟨c :: front, by rw [List.cons_append, ← htext], fun hconclusive rest htake => ?_⟩
  rw [List.cons_append, heq, hrest hconclusive rest htake]

/-- The reader succeeds and goes over nothing. -/
lemma ok (made : α) (text : List Char) : LocalAt (fun text => .ok (made, text)) text := by
  rintro outcome rfl
  exact ⟨[], rfl, fun _ _ _ => rfl⟩

/-- The reader fails and goes over nothing. -/
lemma error (fault : Fault) (text : List Char) :
    LocalAt (fun text => (.error ⟨fault, text⟩ : Except Failure (α × List Char))) text := by
  rintro outcome rfl
  exact ⟨[], rfl, fun _ _ _ => rfl⟩

/-- One reader after another. -/
lemma bind {next : α × List Char → Except Failure (β × List Char)} (h : LocalAt reader text)
    (hnext : ∀ made rest, LocalAt (fun rest => next (made, rest)) rest) :
    LocalAt (fun text => reader text >>= next) text := by
  intro outcome hread
  cases hfirst : reader text with
  | error failure =>
    obtain ⟨front, htext, hrest⟩ := h _ hfirst
    simp only [hfirst] at hread
    subst hread
    refine ⟨front, htext, fun hconclusive rest htake => ?_⟩
    have hfailed := hrest (by rintro f ⟨⟩; exact hconclusive failure rfl) rest htake
    simp only [hfailed]
    rfl
  | ok pair =>
    obtain ⟨made, middle⟩ := pair
    obtain ⟨front, htext, hrest⟩ := h _ hfirst
    simp only [hfirst] at hread
    obtain ⟨front', hmiddle, hrest'⟩ := hnext made middle outcome hread
    refine ⟨front ++ front', ?_, fun hconclusive rest htake => ?_⟩
    · rw [htext, left, List.append_assoc, ← hmiddle]
    · have hahead := take_append_congr front' htake
      rw [← hmiddle] at hahead
      have hmade := hrest (by rintro f ⟨⟩) (front' ++ rest) hahead
      simp only [List.append_assoc, hmade]
      exact hrest' hconclusive rest htake

/-- A reader that fails at the first character. -/
lemma stuck {c : Char} (fault : Fault)
    (heq : ∀ rest, reader (c :: rest) = .error ⟨fault, c :: rest⟩) : LocalAt reader (c :: text) :=
  of_first heq (error fault (c :: text))

/-- A reader after something that is passed over. -/
lemma skip {pass : List Char → Except Failure (List Char)}
    (h : LocalAt (fun text => (pass text).map (Prod.mk ())) text)
    (hnext : ∀ rest, LocalAt reader rest) : LocalAt (fun text => pass text >>= reader) text := by
  have hboth : LocalAt
      (fun text => (pass text).map (Prod.mk ()) >>= fun pair => reader pair.2) text :=
    h.bind fun _ rest => hnext rest
  refine congr (fun text => ?_) hboth
  cases pass text <;> rfl

/-- The same reading with something else made of it. -/
lemma map (f : α → β) (h : LocalAt reader text) :
    LocalAt (fun text => (reader text).map (Prod.map f id)) text := by
  have hboth : LocalAt (fun text => reader text >>= fun pair => .ok (f pair.1, pair.2)) text :=
    h.bind fun made rest => ok (f made) rest
  refine congr (fun text => ?_) hboth
  cases reader text <;> rfl

/-- A mark ends the reading, and something is read if it is not there. -/
lemma orMark (mark : Char) (made : α) (h : LocalAt reader text) :
    LocalAt (fun text => if text.head? = some mark then .ok (made, text.tail) else reader text)
      text := by
  cases text with
  | nil =>
    obtain ⟨front, hfront, -⟩ := h _ rfl
    exact nil (List.append_eq_nil_iff.mp hfront.symm).2
  | cons c text =>
    by_cases hc : c = mark
    · refine .cons (fun rest => ?_) (ok made text)
      rw [hc, List.head?_cons, if_pos rfl, List.tail_cons]
    · refine of_first (fun rest => ?_) h
      rw [List.head?_cons, if_neg (by simpa using hc)]

lemma push {reader : List Char → Except Failure (List Char × List Char)} (c : Char)
    (h : LocalAt reader text) : LocalAt (fun text => PropertyList.push c (reader text)) text := by
  refine congr (fun text => ?_) (h.map (List.cons c))
  cases reader text <;> rfl

end LocalAt

end Local

/-! ## Trivia and marks -/

/-- The part of a text that is trivia is so before other texts, too.  If it goes to the end of the
text, it may be a comment on the last line, and this a line feed must end. -/
lemma Trivia.split {text rest : List Char} (h : Trivia text rest) :
    ∃ front, text = front ++ rest ∧ (∀ more, Trivia (front ++ '\n' :: '\n' :: more) ('\n' :: more)) ∧
      (rest ≠ [] → ∀ more, Trivia (front ++ more) more) := by
  induction h with
  | none rest => exact ⟨[], rfl, fun _ => .space (by decide) (.none _), fun _ => .none⟩
  | @space c _ _ hspace _ ih =>
    obtain ⟨front, rfl, hline, hmore⟩ := ih
    exact ⟨c :: front, rfl, fun more => .space hspace (hline more),
      fun hrest more => .space hspace (hmore hrest more)⟩
  | @line body _ _ hbody _ ih =>
    obtain ⟨front, rfl, hline, hmore⟩ := ih
    refine ⟨'/' :: '/' :: (body ++ '\n' :: front), by simp, fun more => ?_, fun hrest more => ?_⟩
    · simpa using Trivia.line hbody (hline more)
    · simpa using Trivia.line hbody (hmore hrest more)
  | @lastLine body hbody =>
    exact ⟨'/' :: '/' :: body, by simp, fun more => .line hbody (.none _), absurd rfl⟩
  | @block body _ _ hbody _ ih =>
    obtain ⟨front, rfl, hline, hmore⟩ := ih
    refine ⟨'/' :: '*' :: (body ++ '*' :: '/' :: front), by simp, fun more => ?_,
      fun hrest more => ?_⟩
    · simpa using Trivia.block hbody (hline more)
    · simpa using Trivia.block hbody (hmore hrest more)

lemma beginsComment_congr {rest rest' : List Char} (h : rest'.take 2 = rest.take 2) :
    BeginsComment rest' ↔ BeginsComment rest := by
  simp [BeginsComment, List.prefix_iff_eq_take, h]

/-- Where trivia end there is no white space. -/
lemma isWhiteSpace_of_skipTrivia {text rest : List Char} {c : Char}
    (h : skipTrivia text = .ok (c :: rest)) : isWhiteSpace c = false := by
  rw [skipTrivia_of_trivia (skipTrivia_sound h).1] at h
  by_contra hspace
  rw [skipTrivia_space (by simpa using hspace)] at h
  have hlength := (skipTrivia_sound h).1.length_le
  rw [List.length_cons] at hlength
  omega

lemma localAt_skipTrivia (text : List Char) :
    LocalAt (fun text => (skipTrivia text).map (Prod.mk ())) text := by
  intro outcome houtcome
  rcases skipTrivia_cases text with ⟨rest, hread, htrivia, hcomment⟩ | ⟨more, hread, htrivia⟩
  · simp only [hread] at houtcome
    subst houtcome
    obtain ⟨front, rfl, -, hfront⟩ := htrivia.split
    refine ⟨front, rfl, fun _ rest' htake => ?_⟩
    have hstop : skipTrivia (front ++ rest') = .ok rest' := by
      cases rest with
      | nil =>
        obtain rfl : rest' = [] := by simpa [left, Except.map] using htake
        exact hread
      | cons c more =>
        obtain ⟨more', rfl⟩ := List.head?_eq_some_iff.mp (head?_eq_of_take htake)
        rw [skipTrivia_of_trivia (hfront (by simp) _)]
        exact skipTrivia_stop (isWhiteSpace_of_skipTrivia hread)
          (mt (beginsComment_congr htake).mp hcomment)
    simp only [hstop]
    rfl
  · simp only [hread] at houtcome
    subst houtcome
    obtain ⟨front, rfl, -⟩ := htrivia.split
    exact ⟨front, rfl, fun hconclusive => absurd rfl (hconclusive _ rfl)⟩

lemma localAt_expect (wanted : Char) (text : List Char) :
    LocalAt (fun text => (expect wanted text).map (Prod.mk ())) text := by
  cases text with
  | nil => exact .nil rfl
  | cons c text =>
    by_cases hc : c = wanted
    · refine .cons (fun rest => ?_) (.ok () text)
      rw [expect, if_pos hc]
      rfl
    · refine .stuck (.expectedCharacter wanted (some c)) (fun rest => ?_)
      rw [expect, if_neg hc]
      rfl

/-! ## Strings -/

/-- What has to be shown of a property of readers and texts so that the reader of quoted strings has
it in each of its states: it holds where the text or the string ends and where a code point is not
one, and going over one more character keeps it. -/
structure QuotedSteps (quote : Char)
    (P : (List Char → Except Failure (List Char × List Char)) → List Char → Prop) : Prop where
  /-- The text ends. -/
  nil : ∀ state, P (readQuoted quote state) []
  /-- The string ends. -/
  ok : ∀ text, P (fun text => .ok ([], text)) text
  /-- A code point is not one. -/
  invalid : ∀ text, P (fun text => .error ⟨.invalidCodePoint, text⟩) text
  /-- A character stands for a character. -/
  push : ∀ {reader text} c, P reader text → P (fun text => push c (reader text)) text
  /-- The reader goes over a character. -/
  cons : ∀ {reader reader' c text}, (∀ rest, reader (c :: rest) = reader' rest) → P reader' text →
    P reader (c :: text)
  /-- The reader is another one where a character comes next. -/
  of_first : ∀ {reader reader' c text}, (∀ rest, reader (c :: rest) = reader' (c :: rest)) →
    P reader' (c :: text) → P reader (c :: text)

theorem QuotedSteps.readQuoted {quote : Char}
    {P : (List Char → Except Failure (List Char × List Char)) → List Char → Prop}
    (h : QuotedSteps quote P) (state : Escape) (text : List Char) :
    P (readQuoted quote state) text := by
  induction text generalizing state with
  | nil => exact h.nil state
  | cons c text ih =>
    have hordinary : P (PropertyList.readQuoted quote .none) (c :: text) := by
      by_cases hquote : c = quote
      · refine h.cons (fun rest => ?_) (h.ok text)
        rw [PropertyList.readQuoted, readOrdinary, if_pos hquote]
      by_cases hslash : c = '\\'
      · refine h.cons (fun rest => ?_) (ih .started)
        rw [PropertyList.readQuoted, readOrdinary, if_neg hquote, if_pos hslash]
      · refine h.cons (fun rest => ?_) (h.push c (ih .none))
        rw [PropertyList.readQuoted, readOrdinary, if_neg hquote, if_neg hslash]
    cases state with
    | none => exact hordinary
    | started =>
      by_cases hcode : c = 'U'
      · refine h.cons (fun rest => ?_) (ih (.codePoint 3 0))
        rw [PropertyList.readQuoted, if_pos hcode]
      cases hoctal : octalDigit? c with
      | some digit =>
        refine h.cons (fun rest => ?_) (ih (.octal 2 digit))
        rw [PropertyList.readQuoted, if_neg hcode, hoctal]
      | none =>
        refine h.cons (fun rest => ?_) (h.push (unescape c) (ih .none))
        rw [PropertyList.readQuoted, if_neg hcode, hoctal]
    | codePoint digits value =>
      cases hdigit : hexDigit? c with
      | none =>
        refine h.cons (fun rest => ?_) (h.invalid text)
        simp only [PropertyList.readQuoted, hdigit]
      | some digit =>
        cases digits with
        | succ more =>
          refine h.cons (fun rest => ?_) (ih (.codePoint more (16 * value + digit)))
          simp only [PropertyList.readQuoted, hdigit]
        | zero =>
          by_cases hvalid : (16 * value + digit).isValidChar
          · refine h.cons (fun rest => ?_) (h.push (Char.ofNat (16 * value + digit)) (ih .none))
            simp only [PropertyList.readQuoted, hdigit, if_pos hvalid]
          · refine h.cons (fun rest => ?_) (h.invalid text)
            simp only [PropertyList.readQuoted, hdigit, if_neg hvalid]
    | octal digits value =>
      -- The escape ends before `c` unless `c` is a digit that there is room for.
      by_cases hstop : digits = 0 ∨ octalDigit? c = none
      · refine h.of_first (fun rest => ?_) (h.push (Char.ofNat value) hordinary)
        refine readQuoted_octal_stop quote (hstop.imp_right fun hnone => ?_)
        simp [NotAhead, hnone]
      · obtain ⟨hroom, hdigit⟩ := not_or.mp hstop
        obtain ⟨more, rfl⟩ := Nat.exists_eq_succ_of_ne_zero hroom
        obtain ⟨digit, hdigit⟩ := Option.ne_none_iff_exists'.mp hdigit
        refine h.cons (fun rest => ?_) (ih (.octal more (8 * value + digit)))
        simp only [PropertyList.readQuoted, hdigit]

lemma localAt_readQuoted (quote : Char) (state : Escape) (text : List Char) :
    LocalAt (readQuoted quote state) text := by
  have hsteps : QuotedSteps quote LocalAt :=
    { nil := fun state => .nil (by cases state <;> rfl)
      ok := .ok []
      invalid := .error .invalidCodePoint
      push := .push
      cons := .cons
      of_first := .of_first }
  exact hsteps.readQuoted state text

lemma localAt_readString (text : List Char) : LocalAt readString text := by
  cases text with
  | nil => exact .nil rfl
  | cons c text =>
    by_cases hquote : c = '"' ∨ c = '\x27'
    · refine .cons (fun rest => ?_) ((localAt_readQuoted c .none text).map String.ofList)
      rw [readString, if_pos hquote]
      cases readQuoted c .none rest <;> rfl
    by_cases hbare : isBare c = true
    swap
    · refine .stuck (.unexpectedCharacter c) (fun rest => ?_)
      rw [readString, if_neg hquote, if_neg hbare]
    intro outcome houtcome
    rw [readString, if_neg hquote, if_pos hbare] at houtcome
    subst houtcome
    refine ⟨c :: text.takeWhile isBare, ?_, fun _ rest htake => ?_⟩
    · rw [left, List.cons_append, List.takeWhile_append_dropWhile]
    · refine readString_bare (by simp) ?_ ?_
      · intro d hd
        rcases List.mem_cons.mp hd with rfl | hd
        · exact hbare
        · exact List.mem_takeWhile_imp hd
      · intro d hd
        rw [head?_eq_of_take htake] at hd
        have hfirst := List.head?_dropWhile_not isBare text
        rw [left] at hd
        rw [Option.mem_def.mp hd] at hfirst
        exact hfirst

/-! ## Values -/

/-- Passes over trivia and a mark. -/
def passMark (wanted : Char) (text : List Char) : Except Failure (List Char) :=
  skipTrivia text >>= expect wanted

/-- Reads the other items of an array, from where an item and trivia after it end. -/
def readOtherItems (bound : Nat) (item : Value) : List Char → Except Failure (List Value × List Char)
  | [] => .error ⟨.unterminatedArray, []⟩
  | c :: rest =>
    if c = ',' then (readItems bound rest).map (Prod.map (List.cons item) id)
    else if c = ')' then .ok ([item], rest)
    else .error ⟨.expectedSeparator c, c :: rest⟩

/-- Reads an item of an array and the other items. -/
def readFirstItem (bound : Nat) (text : List Char) : Except Failure (List Value × List Char) := do
  let (item, text) ← readValue bound text
  readOtherItems bound item (← skipTrivia text)

/-- Reads an entry of a dictionary and the other entries. -/
def readFirstEntry (bound : Nat) (read : Dict Value) (text : List Char) :
    Except Failure (Dict Value × List Char) := do
  let (key, text) ← readString text
  let text ← skipTrivia (← passMark '=' text)
  let (value, text) ← readValue bound text
  readEntries bound (Dict.insert read key value) (← passMark ';' text)

lemma readItems_succ (bound : Nat) (text : List Char) : readItems (bound + 1) text =
    skipTrivia text >>= fun text =>
      if text.head? = some ')' then .ok ([], text.tail) else readFirstItem bound text := by
  rw [readItems]
  refine bind_congr fun text => ?_
  split
  · rfl
  refine bind_congr fun item => bind_congr fun text => ?_
  cases text with
  | nil => rfl
  | cons c rest =>
    simp only [readOtherItems]
    split
    · cases readItems bound rest <;> rfl
    · rfl

lemma readEntries_succ (bound : Nat) (read : Dict Value) (text : List Char) :
    readEntries (bound + 1) read text = skipTrivia text >>= fun text =>
      if text.head? = some '}' then .ok (read, text.tail) else readFirstEntry bound read text := by
  rw [readEntries]
  refine bind_congr fun text => ?_
  split
  · rfl
  · simp only [readFirstEntry, passMark, bind_assoc]

lemma localAt_passMark (wanted : Char) (text : List Char) :
    LocalAt (fun text => (passMark wanted text).map (Prod.mk ())) text := by
  refine .congr (fun text => ?_) (.skip (localAt_skipTrivia text) (localAt_expect wanted))
  rw [passMark]
  cases skipTrivia text <;> rfl

/-- The readers of values with a given bound are local. -/
structure LocalReaders (bound : Nat) : Prop where
  /-- The reader of a value. -/
  value : ∀ text, LocalAt (readValue bound) text
  /-- The reader of the items of an array. -/
  items : ∀ text, LocalAt (readItems bound) text
  /-- The reader of the entries of a dictionary. -/
  entries : ∀ read text, LocalAt (readEntries bound read) text

namespace LocalReaders

variable {bound : Nat}

lemma value_succ (ih : LocalReaders bound) (text : List Char) :
    LocalAt (readValue (bound + 1)) text := by
  cases text with
  | nil => exact .nil rfl
  | cons c text =>
    by_cases hbrace : c = '{'
    · refine .cons (fun rest => ?_) ((ih.entries [] text).map Value.dictionary)
      rw [readValue, if_pos hbrace]
      cases readEntries bound [] rest <;> rfl
    by_cases hparen : c = '('
    · refine .cons (fun rest => ?_) ((ih.items text).map Value.array)
      rw [readValue, if_neg hbrace, if_pos hparen]
      cases readItems bound rest <;> rfl
    · refine .of_first (fun rest => ?_) ((localAt_readString (c :: text)).map Value.string)
      rw [readValue, if_neg hbrace, if_neg hparen]
      cases readString (c :: rest) <;> rfl

lemma firstItem (ih : LocalReaders bound) (text : List Char) :
    LocalAt (readFirstItem bound) text := by
  refine (ih.value text).bind fun item text => .skip (localAt_skipTrivia text) fun text => ?_
  cases text with
  | nil => exact .nil rfl
  | cons c text =>
    by_cases hcomma : c = ','
    · refine .cons (fun rest => ?_) ((ih.items text).map (List.cons item))
      rw [readOtherItems, if_pos hcomma]
    by_cases hclose : c = ')'
    · refine .cons (fun rest => ?_) (.ok [item] text)
      rw [readOtherItems, if_neg hcomma, if_pos hclose]
    · refine .stuck (.expectedSeparator c) fun rest => ?_
      rw [readOtherItems, if_neg hcomma, if_neg hclose]

lemma firstEntry (ih : LocalReaders bound) (read : Dict Value) (text : List Char) :
    LocalAt (readFirstEntry bound read) text := by
  refine (localAt_readString text).bind fun key text => ?_
  refine .skip (localAt_passMark '=' text) fun text => ?_
  refine .skip (localAt_skipTrivia text) fun text => ?_
  refine (ih.value text).bind fun value text => ?_
  exact .skip (localAt_passMark ';' text) (ih.entries _)

lemma items_succ (ih : LocalReaders bound) (text : List Char) :
    LocalAt (readItems (bound + 1)) text := by
  refine .congr (readItems_succ bound) (.skip (localAt_skipTrivia text) fun text => ?_)
  exact (ih.firstItem text).orMark ')' []

lemma entries_succ (ih : LocalReaders bound) (read : Dict Value) (text : List Char) :
    LocalAt (readEntries (bound + 1) read) text := by
  refine .congr (readEntries_succ bound read) (.skip (localAt_skipTrivia text) fun text => ?_)
  exact (ih.firstEntry read text).orMark '}' read

end LocalReaders

lemma localReaders (bound : Nat) : LocalReaders bound := by
  induction bound with
  | zero => exact ⟨.error _, .error _, fun _ => .error _⟩
  | succ bound ih => exact ⟨ih.value_succ, ih.items_succ, ih.entries_succ⟩

/-! ## The bound -/

/-- Two ways to go on are the same if they are so after every success. -/
lemma bind_congr_of_ok {ε α β : Type} {first : Except ε α} {next next' : α → Except ε β}
    (h : ∀ made, first = .ok made → next made = next' made) : first >>= next = first >>= next' := by
  cases first with
  | error e => rfl
  | ok made => exact h made rfl

lemma LocalAt.length_le {α : Type} {reader : List Char → Except Failure (α × List Char)}
    {text rest : List Char} {made : α} (h : LocalAt reader text)
    (hread : reader text = .ok (made, rest)) : rest.length ≤ text.length := by
  obtain ⟨front, rfl, -⟩ := h _ hread
  rw [List.length_append, left]
  omega

lemma passMark_eq_ok {wanted : Char} {text rest : List Char} (h : passMark wanted text = .ok rest) :
    Trivia text (wanted :: rest) := by
  obtain ⟨start, hskip, hexpect⟩ := exists_of_bind_eq_ok h
  rw [← expect_eq_ok hexpect]
  exact (skipTrivia_sound hskip).1

/-- A bound comes to the same as any other one, if both are large enough for the text. -/
structure BoundCounts (bound : Nat) : Prop where
  /-- For a value. -/
  value : ∀ {bound' text}, 2 * text.length + 1 ≤ bound → 2 * text.length + 1 ≤ bound' →
    readValue bound text = readValue bound' text
  /-- For the items of an array, which begin with a value. -/
  items : ∀ {bound' text}, 2 * text.length + 2 ≤ bound → 2 * text.length + 2 ≤ bound' →
    readItems bound text = readItems bound' text
  /-- For the entries of a dictionary. -/
  entries : ∀ {bound' read text}, 2 * text.length + 2 ≤ bound → 2 * text.length + 2 ≤ bound' →
    readEntries bound read text = readEntries bound' read text

namespace BoundCounts

variable {bound bound' : Nat} {text : List Char}

lemma value_succ (ih : BoundCounts bound) (h : 2 * text.length + 1 ≤ bound + 1)
    (h' : 2 * text.length + 1 ≤ bound' + 1) :
    readValue (bound + 1) text = readValue (bound' + 1) text := by
  cases text with
  | nil => rfl
  | cons c text =>
    rw [List.length_cons] at h h'
    have hentries : readEntries bound [] text = readEntries bound' [] text :=
      ih.entries (by omega) (by omega)
    have hitems : readItems bound text = readItems bound' text := ih.items (by omega) (by omega)
    rw [readValue, readValue, hentries, hitems]

lemma items_succ (ih : BoundCounts bound) (h : 2 * text.length + 2 ≤ bound + 1)
    (h' : 2 * text.length + 2 ≤ bound' + 1) :
    readItems (bound + 1) text = readItems (bound' + 1) text := by
  rw [readItems_succ, readItems_succ]
  refine bind_congr_of_ok fun start hstart => ?_
  have hstart := (skipTrivia_sound hstart).1.length_le
  have hvalue : readValue bound start = readValue bound' start := ih.value (by omega) (by omega)
  rw [readFirstItem, readFirstItem, hvalue]
  split
  · rfl
  refine bind_congr_of_ok ?_
  rintro ⟨item, stop⟩ hitem
  have hstop := ((localReaders bound').value start).length_le hitem
  refine bind_congr_of_ok fun after hafter => ?_
  have hafter := (skipTrivia_sound hafter).1.length_le
  cases after with
  | nil => rfl
  | cons c rest =>
    rw [List.length_cons] at hafter
    have hothers : readItems bound rest = readItems bound' rest := ih.items (by omega) (by omega)
    rw [readOtherItems, readOtherItems, hothers]

lemma entries_succ (ih : BoundCounts bound) {read : Dict Value}
    (h : 2 * text.length + 2 ≤ bound + 1) (h' : 2 * text.length + 2 ≤ bound' + 1) :
    readEntries (bound + 1) read text = readEntries (bound' + 1) read text := by
  rw [readEntries_succ, readEntries_succ]
  refine bind_congr_of_ok fun start hstart => ?_
  have hstart := (skipTrivia_sound hstart).1.length_le
  split
  · rfl
  refine bind_congr_of_ok ?_
  rintro ⟨key, keyStop⟩ hkey
  have hkeyStop := (localAt_readString start).length_le hkey
  refine bind_congr_of_ok fun equals hequals => ?_
  have hequals := (passMark_eq_ok hequals).length_le
  refine bind_congr_of_ok fun valueStart hvalueStart => ?_
  have hvalueStart := (skipTrivia_sound hvalueStart).1.length_le
  rw [List.length_cons] at hequals
  have hvalue : readValue bound valueStart = readValue bound' valueStart :=
    ih.value (by omega) (by omega)
  rw [hvalue]
  refine bind_congr_of_ok ?_
  rintro ⟨value, valueStop⟩ hread
  have hvalueStop := ((localReaders bound').value valueStart).length_le hread
  refine bind_congr_of_ok fun more hmore => ?_
  have hmore := (passMark_eq_ok hmore).length_le
  rw [List.length_cons] at hmore
  exact ih.entries (by omega) (by omega)

end BoundCounts

lemma boundCounts (bound : Nat) : BoundCounts bound := by
  induction bound with
  | zero => exact ⟨by omega, by omega, by omega⟩
  | succ bound ih =>
    refine ⟨?_, ?_, ?_⟩
    · intro bound' text h h'
      obtain ⟨bound', rfl⟩ := Nat.exists_eq_add_one_of_ne_zero (n := bound') (by omega)
      exact ih.value_succ h h'
    · intro bound' text h h'
      obtain ⟨bound', rfl⟩ := Nat.exists_eq_add_one_of_ne_zero (n := bound') (by omega)
      exact ih.items_succ h h'
    · intro bound' read text h h'
      obtain ⟨bound', rfl⟩ := Nat.exists_eq_add_one_of_ne_zero (n := bound') (by omega)
      exact ih.entries_succ h h'

/-! ## Whole texts -/

/-- Reads a whole text, with a bound for its value. -/
def readWhole (bound : Nat) (text : List Char) : Except Failure (Value × List Char) := do
  let (value, text) ← readValue bound (← skipTrivia text)
  let text ← skipTrivia text
  if text.isEmpty then .ok (value, text) else .error ⟨.trailingContent, text⟩

lemma readDocument_eq {bound : Nat} {text : List Char} (h : 2 * text.length + 1 ≤ bound) :
    readDocument text = (readWhole bound text).map Prod.fst := by
  rw [readDocument, readWhole]
  cases hskip : skipTrivia text with
  | error failure => rfl
  | ok start =>
    have hstart := (skipTrivia_sound hskip).1.length_le
    have hvalue : readValue (2 * start.length + 1) start = readValue bound start :=
      (boundCounts _).value (le_refl _) (by omega)
    simp only [bind, Except.bind, hvalue]
    cases readValue bound start with
    | error failure => rfl
    | ok made =>
      simp only
      cases skipTrivia made.2 with
      | error failure => rfl
      | ok rest => cases rest <;> rfl

lemma localAt_readWhole (bound : Nat) (text : List Char) : LocalAt (readWhole bound) text := by
  refine .skip (localAt_skipTrivia text) fun text => ?_
  refine ((localReaders bound).value text).bind fun value text => ?_
  refine .skip (localAt_skipTrivia text) fun text => ?_
  cases text with
  | nil => exact .nil rfl
  | cons c text => exact .stuck .trailingContent fun rest => rfl

/-- A text that is not read stays so, and for the same cause, when what comes after the next two
characters is exchanged. -/
theorem readDocument_local {text : List Char} {failure : Failure}
    (h : readDocument text = .error failure) :
    ∃ front, text = front ++ failure.rest ∧ (failure.fault ≠ .unterminatedComment →
      ∀ rest, rest.take 2 = failure.rest.take 2 →
        readDocument (front ++ rest) = .error ⟨failure.fault, rest⟩) := by
  have hwhole : ∀ bound, 2 * text.length + 1 ≤ bound → readWhole bound text = .error failure := by
    intro bound hbound
    rw [readDocument_eq hbound] at h
    cases hread : readWhole bound text with
    | ok made => rw [hread] at h; cases h
    | error e => rw [hread] at h; cases h; rfl
  obtain ⟨front, htext, -⟩ := localAt_readWhole _ text _ (hwhole _ (le_refl _))
  refine ⟨front, htext, fun hfault rest htake => ?_⟩
  -- The bound must be large enough for both texts.
  let bound := 2 * text.length + 1 + (2 * (front ++ rest).length + 1)
  obtain ⟨front', htext', hrest⟩ :=
    localAt_readWhole bound text _ (hwhole bound (Nat.le_add_right _ _))
  obtain rfl : front' = front := List.append_cancel_right (htext'.symm.trans htext)
  have hread := hrest (by rintro f ⟨⟩; exact hfault) rest htake
  rw [readDocument_eq (Nat.le_add_left _ _ : _ ≤ bound), hread]
  rfl

end XcodeProject.PropertyList
