import Mathlib
import XcodeProject.Proofs.PropertyList.Lookahead

/-!
# What was read can be completed

When reading stops, the text up to there can be gone on with so that it is read, unless reading
stopped in the digits of a code point (`exists_completion`).  What has to be added depends on what is
open: quotes, arrays and dictionaries have to be closed, and before that a value or a mark may be
missing.

Every completion begins with a line feed, and what is completed is followed by one.  A line feed ends
a bare string, an octal escape or a comment on the last line, and it does no harm anywhere else.  So
the parts of a text can be completed one by one (`Viable.comp_left`), and those that were read
before stay as they are (`Viable.comp_right`).
-/

namespace XcodeProject.PropertyList

open XcodeProject.Text
open Relation (Comp)

/-! ## Phrases -/

/-- A part of the notation, as a relation of the texts that begin with it to what follows it. -/
abbrev Phrase : Type :=
  List Char → List Char → Prop

/-- A punctuation mark. -/
def Mark (c : Char) : Phrase :=
  fun text rest => text = c :: rest

/-- A string, whichever it is. -/
def AnyString : Phrase :=
  fun text rest => ∃ content, StringText text content rest

/-- A value, whichever it is. -/
def AnyValue : Phrase :=
  fun text rest => ∃ value, ValueText text value rest

/-- The items of an array, whichever they are, through the closing parenthesis. -/
def AnyItems : Phrase :=
  fun text rest => ∃ items, ItemsText text items rest

/-- The entries of a dictionary, whichever they are, through the closing brace. -/
def AnyEntries : Phrase :=
  fun text rest => ∃ entries, EntriesText text entries rest

/-- A phrase with trivia before it. -/
def Padded (phrase : Phrase) : Phrase :=
  Comp Trivia phrase

section Constructors

variable {text rest : List Char}

lemma anyValue_string (h : AnyString text rest) : AnyValue text rest := by
  obtain ⟨content, hcontent⟩ := h
  exact ⟨.string content, .string hcontent⟩

lemma anyValue_array (h : AnyItems text rest) : AnyValue ('(' :: text) rest := by
  obtain ⟨items, hitems⟩ := h
  exact ⟨.array items, .array hitems⟩

lemma anyValue_dictionary (h : AnyEntries text rest) : AnyValue ('{' :: text) rest := by
  obtain ⟨entries, hentries⟩ := h
  exact ⟨_, .dictionary hentries⟩

lemma anyItems_close (h : Padded (Mark ')') text rest) : AnyItems text rest := by
  obtain ⟨start, hbefore, rfl⟩ := h
  exact ⟨[], .close hbefore⟩

lemma anyItems_last (h : Comp (Padded AnyValue) (Padded (Mark ')')) text rest) :
    AnyItems text rest := by
  obtain ⟨stop, ⟨start, hbefore, item, hitem⟩, last, hafter, rfl⟩ := h
  exact ⟨[item], .last hbefore hitem hafter⟩

lemma anyItems_cons (h : Comp (Padded AnyValue) (Comp (Padded (Mark ',')) AnyItems) text rest) :
    AnyItems text rest := by
  obtain ⟨stop, ⟨start, hbefore, item, hitem⟩, more, ⟨last, hafter, rfl⟩, items, hitems⟩ := h
  exact ⟨item :: items, .cons hbefore hitem hafter hitems⟩

lemma anyEntries_close (h : Padded (Mark '}') text rest) : AnyEntries text rest := by
  obtain ⟨start, hbefore, rfl⟩ := h
  exact ⟨[], .close hbefore⟩

lemma anyEntries_cons (h : Comp (Padded AnyString) (Comp (Padded (Mark '=')) (Comp (Padded AnyValue)
      (Comp (Padded (Mark ';')) AnyEntries))) text rest) :
    AnyEntries text rest := by
  obtain ⟨keyStop, ⟨start, hbefore, key, hkey⟩, equals, ⟨mark, hequals, rfl⟩, valueStop,
    ⟨valueStart, hbeforeValue, value, hvalue⟩, more, ⟨mark', hmore, rfl⟩, entries, hentries⟩ := h
  exact ⟨(key, value) :: entries, .cons hbefore hkey hequals hbeforeValue hvalue hmore hentries⟩

end Constructors

/-! ## What was read stays as it is -/

/-- The other text begins with the same character or with a line feed. -/
def Alike (rest rest' : List Char) : Prop :=
  rest'.head? = rest.head? ∨ rest'.head? = some '\n'

lemma head?_append_congr {front : List Char} (hfront : front ≠ []) (rest rest' : List Char) :
    (front ++ rest).head? = (front ++ rest').head? := by
  rw [List.head?_append_of_ne_nil _ hfront, List.head?_append_of_ne_nil _ hfront]

/-- A phrase stays one when what follows it is exchanged. -/
def Detaches (phrase : Phrase) (text rest : List Char) : Prop :=
  ∃ front, front ≠ [] ∧ text = front ++ rest ∧
    ∀ rest', Alike rest rest' → phrase (front ++ rest') rest'

namespace Detaches

variable {first second : Phrase} {text middle rest : List Char}

lemma mono (h : Detaches first text rest)
    (hphrase : ∀ {text rest}, first text rest → second text rest) : Detaches second text rest := by
  obtain ⟨front, hfront, htext, hrest⟩ := h
  exact ⟨front, hfront, htext, fun rest' halike => hphrase (hrest rest' halike)⟩

lemma mark (c : Char) (rest : List Char) : Detaches (Mark c) (c :: rest) rest :=
  ⟨[c], by simp, rfl, fun _ _ => rfl⟩

/-- A phrase that begins with a mark which is not a part of the other phrase. -/
lemma cons {c : Char} (h : Detaches first text rest)
    (hphrase : ∀ {text rest}, first text rest → second (c :: text) rest) :
    Detaches second (c :: text) rest := by
  obtain ⟨front, -, rfl, hrest⟩ := h
  exact ⟨c :: front, by simp, rfl, fun rest' halike => hphrase (hrest rest' halike)⟩

lemma comp (h : Detaches first text middle) (h' : Detaches second middle rest) :
    Detaches (Comp first second) text rest := by
  obtain ⟨front, hfront, rfl, hmiddle⟩ := h
  obtain ⟨front', hfront', rfl, hrest⟩ := h'
  refine ⟨front ++ front', by simp [hfront], by simp, fun rest' halike => ?_⟩
  rw [List.append_assoc]
  exact ⟨front' ++ rest', hmiddle _ (.inl (head?_append_congr hfront' _ _)), hrest rest' halike⟩

lemma padded (hbefore : Trivia text middle) (h : Detaches first middle rest) :
    Detaches (Padded first) text rest := by
  obtain ⟨front', hfront', rfl, hrest⟩ := h
  obtain ⟨front, rfl, -, hmore⟩ := hbefore.split
  refine ⟨front ++ front', by simp [hfront'], by simp, fun rest' halike => ?_⟩
  rw [List.append_assoc]
  exact ⟨front' ++ rest', hmore (by simp [hfront']) _, hrest rest' halike⟩

end Detaches

lemma QuotedText.split {quote : Char} {text content rest : List Char}
    (h : QuotedText quote text content rest) :
    ∃ front, front ≠ [] ∧ text = front ++ rest ∧
      ∀ rest', QuotedText quote (front ++ rest') content rest' := by
  induction h with
  | close rest => exact ⟨[quote], by simp, rfl, .close⟩
  | @plain c _ _ _ hquote hslash _ ih =>
    obtain ⟨front, -, rfl, hrest⟩ := ih
    exact ⟨c :: front, by simp, rfl, fun rest' => .plain hquote hslash (hrest rest')⟩
  | @escaped c _ _ _ hcode hoctal _ ih =>
    obtain ⟨front, -, rfl, hrest⟩ := ih
    exact ⟨'\\' :: c :: front, by simp, rfl, fun rest' => .escaped hcode hoctal (hrest rest')⟩
  | @codePoint digits _ _ _ _ hdigits hfour hvalid _ ih =>
    obtain ⟨front, -, rfl, hrest⟩ := ih
    refine ⟨'\\' :: 'U' :: (digits ++ front), by simp, by simp, fun rest' => ?_⟩
    simpa using QuotedText.codePoint hdigits hfour hvalid (hrest rest')
  | @octal digits _ _ _ _ hdigits hsome hthree hlongest _ ih =>
    obtain ⟨front, hfront, rfl, hrest⟩ := ih
    refine ⟨'\\' :: (digits ++ front), by simp, by simp, fun rest' => ?_⟩
    rw [NotAhead, head?_append_congr hfront _ rest'] at hlongest
    simpa using QuotedText.octal hdigits hsome hthree hlongest (hrest rest')

lemma beginsComment_append {word rest rest' : List Char} (hsome : word ≠ [])
    (halike : Alike rest rest') (h : BeginsComment (word ++ rest')) :
    BeginsComment (word ++ rest) := by
  match word, hsome with
  | [c], _ =>
    rcases halike with hsame | hline
    · have htake : (c :: rest').take 2 = (c :: rest).take 2 := by
        rw [List.take_succ_cons, List.take_succ_cons, List.take_one, List.take_one, hsame]
      exact (beginsComment_congr htake).mp h
    · obtain ⟨more, rfl⟩ := List.head?_eq_some_iff.mp hline
      simp [BeginsComment] at h
  | c :: d :: word, _ => exact (beginsComment_congr (by simp)).mp h

lemma StringText.detaches {text rest : List Char} {content : String}
    (h : StringText text content rest) : Detaches AnyString text rest := by
  cases h with
  | @quoted quote _ content _ hquote more =>
    obtain ⟨front, -, rfl, hrest⟩ := more.split
    exact ⟨quote :: front, by simp, rfl,
      fun rest' _ => ⟨String.ofList content, .quoted hquote (hrest rest')⟩⟩
  | @bare word _ hsome hword hlongest hcomment =>
    refine ⟨word, hsome, rfl, fun rest' halike => ⟨String.ofList word, ?_⟩⟩
    refine .bare hsome hword ?_ (mt (beginsComment_append hsome halike) hcomment)
    intro c hc
    rcases halike with hsame | hline
    · rw [hsame] at hc
      exact hlongest c hc
    · rw [hline] at hc
      obtain rfl := Option.mem_some.mp hc
      decide

mutual

lemma ValueText.detaches {text rest : List Char} {value : Value} :
    ValueText text value rest → Detaches AnyValue text rest
  | .string more => more.detaches.mono anyValue_string
  | .array more => more.detaches.cons anyValue_array
  | .dictionary more => more.detaches.cons anyValue_dictionary

lemma ItemsText.detaches {text rest : List Char} {items : List Value} :
    ItemsText text items rest → Detaches AnyItems text rest
  | .close before => (Detaches.padded before (.mark ')' rest)).mono anyItems_close
  | .last before value after => by
    have hvalue := Detaches.padded before value.detaches
    have hafter := Detaches.padded after (.mark ')' rest)
    exact (hvalue.comp hafter).mono anyItems_last
  | .cons before value after others => by
    have hvalue := Detaches.padded before value.detaches
    have hafter := Detaches.padded after (.mark ',' _)
    exact (hvalue.comp (hafter.comp others.detaches)).mono anyItems_cons

lemma EntriesText.detaches {text rest : List Char} {entries : List (String × Value)} :
    EntriesText text entries rest → Detaches AnyEntries text rest
  | .close before => (Detaches.padded before (.mark '}' rest)).mono anyEntries_close
  | .cons before name afterName beforeValue content afterValue others => by
    have hname := Detaches.padded before name.detaches
    have hequals := Detaches.padded afterName (.mark '=' _)
    have hvalue := Detaches.padded beforeValue content.detaches
    have hmore := Detaches.padded afterValue (.mark ';' _)
    exact (hname.comp (hequals.comp (hvalue.comp (hmore.comp others.detaches)))).mono anyEntries_cons

end

/-! ## Completions -/

/-- The text can be gone on with so that it is a phrase, by a line feed and more. -/
def Completable (phrase : Phrase) (front : List Char) : Prop :=
  ∃ added, ∀ after, phrase (front ++ '\n' :: (added ++ '\n' :: after)) ('\n' :: after)

/-- What stands in the text before `left` can be completed. -/
def Viable (phrase : Phrase) (text left : List Char) : Prop :=
  ∃ front, text = front ++ left ∧ Completable phrase front

lemma Completable.mono {first second : Phrase} {front : List Char} (h : Completable first front)
    (hphrase : ∀ {text rest}, first text rest → second text rest) : Completable second front := by
  obtain ⟨added, hadded⟩ := h
  exact ⟨added, fun after => hphrase (hadded after)⟩

lemma Completable.comp {first second : Phrase} {front : List Char} (h : Completable first front)
    (h' : Completable second []) : Completable (Comp first second) front := by
  obtain ⟨added, hadded⟩ := h
  obtain ⟨added', hadded'⟩ := h'
  refine ⟨added ++ '\n' :: added', fun after => ?_⟩
  have hfirst := hadded (added' ++ '\n' :: after)
  exact ⟨_, by simpa using hfirst, hadded' after⟩

lemma Padded.of_line {phrase : Phrase} {text rest : List Char} (h : phrase text rest) :
    Padded phrase ('\n' :: text) rest :=
  ⟨text, .space (by decide) (.none text), h⟩

lemma completable_mark (c : Char) : Completable (Padded (Mark c)) [] :=
  ⟨[c], fun _ => Padded.of_line rfl⟩

lemma completable_anyString : Completable (Padded AnyString) [] := by
  have hletter : isBare 'a' = true := by decide
  have hline : isBare '\n' = false := by decide
  refine ⟨['a'], fun after => Padded.of_line ⟨String.ofList ['a'], ?_⟩⟩
  exact .bare (by simp) (by simpa using hletter) (by simpa [NotAhead] using hline)
    (by simp [BeginsComment])

lemma Padded.mono {first second : Phrase}
    (hphrase : ∀ {text rest}, first text rest → second text rest) {text rest : List Char}
    (h : Padded first text rest) : Padded second text rest := by
  obtain ⟨start, hbefore, hfirst⟩ := h
  exact ⟨start, hbefore, hphrase hfirst⟩

lemma completable_anyValue : Completable (Padded AnyValue) [] :=
  completable_anyString.mono (Padded.mono anyValue_string)

lemma completable_anyItems : Completable AnyItems [] :=
  (completable_mark ')').mono anyItems_close

lemma completable_anyEntries : Completable AnyEntries [] :=
  (completable_mark '}').mono anyEntries_close

namespace Viable

variable {first second : Phrase} {text middle left : List Char}

lemma mono (h : Viable first text left)
    (hphrase : ∀ {text rest}, first text rest → second text rest) : Viable second text left := by
  obtain ⟨front, htext, hfront⟩ := h
  exact ⟨front, htext, hfront.mono hphrase⟩

/-- Nothing was read. -/
lemma here (h : Completable first []) (text : List Char) : Viable first text text :=
  ⟨[], rfl, h⟩

lemma cons {c : Char} (h : Viable first text left)
    (hphrase : ∀ {text rest}, first text rest → second (c :: text) rest) :
    Viable second (c :: text) left := by
  obtain ⟨front, rfl, added, hadded⟩ := h
  exact ⟨c :: front, rfl, added, fun after => hphrase (hadded after)⟩

/-- The first phrase is completed, and then the second one is written. -/
lemma comp_left (h : Viable first text left) (h' : Completable second []) :
    Viable (Comp first second) text left := by
  obtain ⟨front, htext, hfront⟩ := h
  exact ⟨front, htext, hfront.comp h'⟩

/-- The first phrase was read, and the second one is completed. -/
lemma comp_right (h : Detaches first text middle) (h' : Viable second middle left) :
    Viable (Comp first second) text left := by
  obtain ⟨front, hfront, rfl, hmiddle⟩ := h
  obtain ⟨front', rfl, added, hadded⟩ := h'
  refine ⟨front ++ front', by simp, added, fun after => ⟨_, ?_, hadded after⟩⟩
  rw [List.append_assoc]
  refine hmiddle _ ?_
  cases front' with
  | nil => exact .inr rfl
  | cons c front' => exact .inl rfl

/-- Trivia were passed over before. -/
lemma padded (hbefore : Trivia text middle) (h : Viable (Padded first) middle left) :
    Viable (Padded first) text left := by
  obtain ⟨front', rfl, added, hadded⟩ := h
  obtain ⟨front, rfl, hline, hmore⟩ := hbefore.split
  by_cases hend : front' ++ left = []
  · -- The trivia may be a comment on the last line, which takes a line feed of its own.
    obtain ⟨rfl, rfl⟩ := List.append_eq_nil_iff.mp hend
    refine ⟨front, by simp, '\n' :: added, fun after => ?_⟩
    obtain ⟨start, htrivia, hphrase⟩ := hadded after
    exact ⟨start, (hline _).trans htrivia, hphrase⟩
  · refine ⟨front ++ front', by simp, added, fun after => ?_⟩
    obtain ⟨start, htrivia, hphrase⟩ := hadded after
    rw [List.append_assoc]
    exact ⟨start, (hmore hend _).trans htrivia, hphrase⟩

end Viable

/-! ## Readings that failed -/

/-- A computation that fails has failed at first or later. -/
lemma error_or_of_bind_eq_error {ε α β : Type} {first : Except ε α} {next : α → Except ε β} {e : ε}
    (h : first >>= next = .error e) :
    first = .error e ∨ ∃ made, first = .ok made ∧ next made = .error e := by
  cases first with
  | error e' =>
    cases h
    exact .inl rfl
  | ok made => exact .inr ⟨made, rfl, h⟩

variable {text : List Char} {failure : Failure}

lemma trivia_of_skipTrivia_eq_error (h : skipTrivia text = .error failure) :
    Trivia text failure.rest := by
  rcases skipTrivia_cases text with ⟨rest, hread, -⟩ | ⟨more, hread, htrivia⟩
  · rw [h] at hread
    cases hread
  · rw [h] at hread
    obtain rfl := Except.error.inj hread
    exact htrivia

lemma rest_of_expect_eq_error {wanted : Char} (h : expect wanted text = .error failure) :
    failure.rest = text := by
  cases text with
  | nil =>
    obtain rfl := Except.error.inj h
    rfl
  | cons c text =>
    rw [expect] at h
    split at h
    · cases h
    · obtain rfl := Except.error.inj h
      rfl

/-- A mark that is missing where trivia end can be written there. -/
lemma viable_mark {left : List Char} (h : Trivia text left) (c : Char) :
    Viable (Padded (Mark c)) text left :=
  .padded h (.here (completable_mark c) left)

lemma viable_of_passMark {wanted : Char} (h : passMark wanted text = .error failure) :
    Viable (Padded (Mark wanted)) text failure.rest := by
  rcases error_or_of_bind_eq_error h with hskip | ⟨start, hskip, hexpect⟩
  · exact viable_mark (trivia_of_skipTrivia_eq_error hskip) wanted
  · rw [rest_of_expect_eq_error hexpect]
    exact viable_mark (skipTrivia_sound hskip).1 wanted

/-- If the inside of a quoted string does not end, a line feed and the quote end it. -/
def EndsByQuote (quote : Char) (reader : List Char → Except Failure (List Char × List Char))
    (text : List Char) : Prop :=
  ∀ failure, reader text = .error failure → failure.fault ≠ .invalidCodePoint →
    failure.rest = [] ∧ ∃ content, ∀ after,
      reader (text ++ '\n' :: quote :: after) = .ok (content, after)

lemma quotedSteps_endsByQuote {quote : Char} (hquote : quote = '"' ∨ quote = '\x27') :
    QuotedSteps quote (EndsByQuote quote) where
  nil state := by
    have hline : '\n' ≠ quote := by rcases hquote with rfl | rfl <;> decide
    have hdigit : octalDigit? '\n' = none := by decide
    intro failure h hfault
    cases state with
    | none =>
      obtain rfl := Except.error.inj h
      exact ⟨rfl, ['\n'], fun after => by simp [readQuoted, readOrdinary, hline, push]⟩
    | started =>
      obtain rfl := Except.error.inj h
      exact ⟨rfl, ['\n'], fun after => by
        simp [readQuoted, readOrdinary, hdigit, push, unescape]⟩
    | codePoint digits value =>
      obtain rfl := Except.error.inj h
      exact absurd rfl hfault
    | octal digits value =>
      obtain rfl := Except.error.inj h
      exact ⟨rfl, [Char.ofNat value, '\n'], fun after => by
        simp [readQuoted, readOrdinary, hdigit, hline, push]⟩
  ok text := by
    rintro failure ⟨⟩
  invalid text := by
    rintro failure ⟨⟩ hfault
    exact absurd rfl hfault
  push c h := by
    rename_i reader text
    intro failure hread hfault
    cases hfirst : reader text with
    | ok made =>
      simp only [hfirst, push] at hread
      cases hread
    | error e =>
      simp only [hfirst, push] at hread
      obtain ⟨hrest, content, hcontent⟩ := h e hfirst (by rwa [Except.error.inj hread])
      rw [← Except.error.inj hread]
      exact ⟨hrest, c :: content, fun after => by simp only [hcontent after, push]⟩
  cons heq h := by
    intro failure hread hfault
    rw [heq] at hread
    obtain ⟨hrest, content, hcontent⟩ := h failure hread hfault
    exact ⟨hrest, content, fun after => by rw [List.cons_append, heq, hcontent after]⟩
  of_first heq h := by
    intro failure hread hfault
    rw [heq] at hread
    obtain ⟨hrest, content, hcontent⟩ := h failure hread hfault
    exact ⟨hrest, content, fun after => by
      rw [List.cons_append, heq, ← List.cons_append, hcontent after]⟩

lemma viable_of_readString (h : readString text = .error failure)
    (hfault : failure.fault ≠ .invalidCodePoint) : Viable (Padded AnyString) text failure.rest := by
  cases text with
  | nil =>
    obtain rfl := Except.error.inj h
    exact .here completable_anyString []
  | cons c text =>
    rw [readString] at h
    split at h
    · next hquote =>
      split at h
      · cases h
      · next e hread =>
        obtain rfl := Except.error.inj h
        obtain ⟨hrest, content, hcontent⟩ :=
          (quotedSteps_endsByQuote hquote).readQuoted .none text e hread hfault
        refine ⟨c :: text, by rw [hrest, List.append_nil], [c], fun after => ?_⟩
        refine ⟨_, .none _, String.ofList content, .quoted hquote ?_⟩
        exact quotedFrom_of_readQuoted (hcontent ('\n' :: after))
    · split at h
      · cases h
      · obtain rfl := Except.error.inj h
        exact .here completable_anyString (c :: text)

/-- What the three readers of values have read with a given bound when they fail can be completed. -/
structure CompletesAt (bound : Nat) : Prop where
  /-- A value. -/
  value : ∀ {text failure}, readValue bound text = .error failure →
    failure.fault ≠ .invalidCodePoint → Viable (Padded AnyValue) text failure.rest
  /-- The items of an array. -/
  items : ∀ {text failure}, readItems bound text = .error failure →
    failure.fault ≠ .invalidCodePoint → Viable AnyItems text failure.rest
  /-- The entries of a dictionary. -/
  entries : ∀ {text failure read}, readEntries bound read text = .error failure →
    failure.fault ≠ .invalidCodePoint → Viable AnyEntries text failure.rest

namespace CompletesAt

variable {bound : Nat}

lemma value_succ (ih : CompletesAt bound) (h : readValue (bound + 1) text = .error failure)
    (hfault : failure.fault ≠ .invalidCodePoint) : Viable (Padded AnyValue) text failure.rest := by
  cases text with
  | nil =>
    obtain rfl := Except.error.inj h
    exact .here completable_anyValue []
  | cons c text =>
    rw [readValue] at h
    split at h
    · next hbrace =>
      rcases error_or_of_bind_eq_error h with hentries | ⟨made, -, hmade⟩
      · refine (ih.entries hentries hfault).cons fun hphrase => ?_
        exact ⟨_, .none _, hbrace ▸ anyValue_dictionary hphrase⟩
      · cases hmade
    · split at h
      · next hparen =>
        rcases error_or_of_bind_eq_error h with hitems | ⟨made, -, hmade⟩
        · refine (ih.items hitems hfault).cons fun hphrase => ?_
          exact ⟨_, .none _, hparen ▸ anyValue_array hphrase⟩
        · cases hmade
      · rcases error_or_of_bind_eq_error h with hstring | ⟨made, -, hmade⟩
        · exact (viable_of_readString hstring hfault).mono (Padded.mono anyValue_string)
        · cases hmade

lemma items_succ (ih : CompletesAt bound) (h : readItems (bound + 1) text = .error failure)
    (hfault : failure.fault ≠ .invalidCodePoint) : Viable AnyItems text failure.rest := by
  rw [readItems_succ] at h
  rcases error_or_of_bind_eq_error h with hskip | ⟨start, hskip, h⟩
  · exact (viable_mark (trivia_of_skipTrivia_eq_error hskip) ')').mono anyItems_close
  obtain ⟨hbefore, hcomment⟩ := skipTrivia_sound hskip
  split at h
  · cases h
  rcases error_or_of_bind_eq_error h with hvalue | ⟨⟨item, stop⟩, hvalue, h⟩
  · have hitem := (ih.value hvalue hfault).padded hbefore
    exact (hitem.comp_left (completable_mark ')')).mono anyItems_last
  have hitem := Detaches.padded hbefore ((soundAt bound).value hvalue hcomment).detaches
  have hlast : ∀ {left}, Trivia stop left → Viable AnyItems text left :=
    fun hafter => (Viable.comp_right hitem (viable_mark hafter ')')).mono anyItems_last
  rcases error_or_of_bind_eq_error h with hskip | ⟨after, hskip, h⟩
  · exact hlast (trivia_of_skipTrivia_eq_error hskip)
  have hafter := (skipTrivia_sound hskip).1
  cases after with
  | nil =>
    obtain rfl := Except.error.inj h
    exact hlast hafter
  | cons c rest =>
    rw [readOtherItems] at h
    split at h
    · next hcomma =>
      subst hcomma
      have hitems : readItems bound rest = .error failure := by
        cases hread : readItems bound rest with
        | ok made => rw [hread] at h; cases h
        | error e => rw [hread] at h; cases h; rfl
      have hcomma := Detaches.padded hafter (.mark ',' rest)
      have hothers := Viable.comp_right hcomma (ih.items hitems hfault)
      exact (Viable.comp_right hitem hothers).mono anyItems_cons
    · split at h
      · cases h
      · obtain rfl := Except.error.inj h
        exact hlast hafter

lemma entries_succ (ih : CompletesAt bound) {read : Dict Value}
    (h : readEntries (bound + 1) read text = .error failure)
    (hfault : failure.fault ≠ .invalidCodePoint) : Viable AnyEntries text failure.rest := by
  have hafterValue := (completable_mark ';').comp completable_anyEntries
  have hafterEquals := completable_anyValue.comp hafterValue
  have hafterKey := (completable_mark '=').comp hafterEquals
  rw [readEntries_succ] at h
  rcases error_or_of_bind_eq_error h with hskip | ⟨start, hskip, h⟩
  · exact (viable_mark (trivia_of_skipTrivia_eq_error hskip) '}').mono anyEntries_close
  obtain ⟨hbefore, hcomment⟩ := skipTrivia_sound hskip
  split at h
  · cases h
  rcases error_or_of_bind_eq_error h with hname | ⟨⟨key, keyStop⟩, hname, h⟩
  · have hkey := (viable_of_readString hname hfault).padded hbefore
    exact (hkey.comp_left hafterKey).mono anyEntries_cons
  have hkey := Detaches.padded hbefore (stringText_of_readString hname hcomment).detaches
  have hequals : ∀ {left}, Viable _ keyStop left → Viable AnyEntries text left :=
    fun hrest => (Viable.comp_right hkey hrest).mono anyEntries_cons
  rcases error_or_of_bind_eq_error h with hmark | ⟨equals, hmark, h⟩
  · exact hequals ((viable_of_passMark hmark).comp_left hafterEquals)
  have hmarkEquals := Detaches.padded (passMark_eq_ok hmark) (.mark '=' equals)
  have hvalue : ∀ {left}, Viable _ equals left → Viable AnyEntries text left :=
    fun hrest => hequals (.comp_right hmarkEquals hrest)
  rcases error_or_of_bind_eq_error h with hskip | ⟨valueStart, hskip, h⟩
  · have hmissing := Viable.padded (trivia_of_skipTrivia_eq_error hskip)
      (.here completable_anyValue failure.rest)
    exact hvalue (hmissing.comp_left hafterValue)
  obtain ⟨hbeforeValue, hcomment⟩ := skipTrivia_sound hskip
  rcases error_or_of_bind_eq_error h with hread | ⟨⟨value, valueStop⟩, hread, h⟩
  · exact hvalue (((ih.value hread hfault).padded hbeforeValue).comp_left hafterValue)
  have hcontent := Detaches.padded hbeforeValue ((soundAt bound).value hread hcomment).detaches
  rcases error_or_of_bind_eq_error h with hmark | ⟨more, hmark, h⟩
  · have hsemicolon := (viable_of_passMark hmark).comp_left completable_anyEntries
    exact hvalue (.comp_right hcontent hsemicolon)
  have hsemicolon := Detaches.padded (passMark_eq_ok hmark) (.mark ';' more)
  exact hvalue (.comp_right hcontent (.comp_right hsemicolon (ih.entries h hfault)))

end CompletesAt

lemma completesAt (bound : Nat) : CompletesAt bound := by
  induction bound with
  | zero =>
    refine ⟨?_, ?_, ?_⟩
    · intro text failure h _
      obtain rfl := Except.error.inj h
      exact .here completable_anyValue text
    · intro text failure h _
      obtain rfl := Except.error.inj h
      exact .here completable_anyItems text
    · intro text failure read h _
      obtain rfl := Except.error.inj h
      exact .here completable_anyEntries text
  | succ bound ih => exact ⟨ih.value_succ, ih.items_succ, ih.entries_succ⟩

/-! ## Whole texts -/

lemma viable_trivia {left : List Char} (h : Trivia text left) : Viable Trivia text left := by
  obtain ⟨front, rfl, hline, -⟩ := h.split
  exact ⟨front, rfl, [], hline⟩

lemma viable_of_readDocument (h : readDocument text = .error failure)
    (hfault : failure.fault ≠ .invalidCodePoint) :
    Viable (Comp (Padded AnyValue) Trivia) text failure.rest := by
  have hend : Completable Trivia [] := ⟨[], fun after => .space (by decide) (.none _)⟩
  rcases error_or_of_bind_eq_error h with hskip | ⟨start, hskip, h⟩
  · have hmissing := Viable.padded (trivia_of_skipTrivia_eq_error hskip)
      (.here completable_anyValue failure.rest)
    exact hmissing.comp_left hend
  obtain ⟨hbefore, hcomment⟩ := skipTrivia_sound hskip
  rcases error_or_of_bind_eq_error h with hread | ⟨⟨value, stop⟩, hread, h⟩
  · exact (((completesAt _).value hread hfault).padded hbefore).comp_left hend
  have hvalue := Detaches.padded hbefore ((soundAt _).value hread hcomment).detaches
  rcases error_or_of_bind_eq_error h with hskip | ⟨rest, hskip, h⟩
  · exact .comp_right hvalue (viable_trivia (trivia_of_skipTrivia_eq_error hskip))
  split at h
  · cases h
  · obtain rfl := Except.error.inj h
    exact .comp_right hvalue (viable_trivia (skipTrivia_sound hskip).1)

/-- When a text is not read, what stands before the place where reading stopped is the beginning of a
text that is, unless reading stopped in a code point. -/
theorem exists_completion (h : readDocument text = .error failure)
    (hfault : failure.fault ≠ .invalidCodePoint) :
    ∃ front, text = front ++ failure.rest ∧ ∃ added value, DocumentText (front ++ added) value := by
  obtain ⟨front, htext, added, hadded⟩ := viable_of_readDocument h hfault
  obtain ⟨stop, ⟨start, hbefore, value, hvalue⟩, hafter⟩ := hadded []
  refine ⟨front, htext, _, value, start, stop, hbefore, hvalue, hafter.trans ?_⟩
  exact .space (by decide) (.none [])

end XcodeProject.PropertyList
