import Mathlib
import XcodeProject.Proofs.PropertyList.ReaderComplete

/-!
# What the reader accepts, the notation allows

Whenever a text is read, the grammar derives it with the value that was read
(`documentText_of_parse`).  The proof follows the readers.  Each of them passes over trivia first,
so what it then looks at begins no comment (`skipTrivia_sound`); this is why a bare string that is
read is one that the grammar allows.

Inside a quoted string the reader is a machine with the states of `Escape`, and
`QuotedFrom` says for each state what the text from there on is.
-/

namespace XcodeProject.PropertyList

open XcodeProject.Text

/-- A computation that succeeds after another one succeeded has a result in between. -/
lemma exists_of_bind_eq_ok {ε α β : Type} {first : Except ε α} {next : α → Except ε β} {result : β}
    (h : first >>= next = .ok result) : ∃ made, first = .ok made ∧ next made = .ok result := by
  cases first with
  | error e => cases h
  | ok made => exact ⟨made, rfl, h⟩

/-! ## Trivia -/

lemma skipLine_cases (text : List Char) :
    (∃ body more, text = body ++ '\n' :: more ∧ '\n' ∉ body ∧ skipLine text = skipTrivia more) ∨
      ('\n' ∉ text ∧ skipLine text = .ok []) := by
  by_cases hline : '\n' ∈ text
  · obtain ⟨body, more, rfl, hbody⟩ := List.eq_append_cons_of_mem hline
    exact .inl ⟨body, more, rfl, hbody, skipLine_append hbody more⟩
  · exact .inr ⟨hline, skipLine_last hline⟩

lemma skipBlock_cases (start text : List Char) :
    (∃ body more, text = body ++ '*' :: '/' :: more ∧ ¬ commentEnd <:+: body ∧
      skipBlock start text = skipTrivia more) ∨
      skipBlock start text = .error ⟨.unterminatedComment, start⟩ := by
  induction text with
  | nil => exact .inr (by rw [skipBlock])
  | cons c text ih =>
    by_cases hend : c = '*' ∧ ∃ more, text = '/' :: more
    · obtain ⟨rfl, more, rfl⟩ := hend
      rw [skipBlock]
      exact .inl ⟨[], more, rfl, by simp [commentEnd], rfl⟩
    · have hgoesOn : ∀ more, c = '*' → text = '/' :: more → False :=
        fun more hc hmore => hend ⟨hc, more, hmore⟩
      rw [skipBlock.eq_3 start c text hgoesOn]
      refine ih.imp_left ?_
      rintro ⟨body, more, rfl, hbody, hmore⟩
      refine ⟨c :: body, more, rfl, ?_, hmore⟩
      -- An end of a comment in the longer body would begin at its first character.
      intro hinfix
      rcases List.infix_cons_iff.mp hinfix with hahead | hinside
      · cases body with
        | nil => simp [commentEnd] at hahead
        | cons d body =>
          simp only [commentEnd, List.cons_prefix_cons, List.nil_prefix, and_true] at hahead
          exact hgoesOn _ hahead.1.symm (by rw [← hahead.2]; rfl)
      · exact hbody hinside

/-- Trivia are passed over up to a text that begins no comment, or up to a comment without an end. -/
lemma skipTrivia_cases (text : List Char) :
    (∃ rest, skipTrivia text = .ok rest ∧ Trivia text rest ∧ ¬ BeginsComment rest) ∨
      ∃ more, skipTrivia text = .error ⟨.unterminatedComment, '/' :: '*' :: more⟩ ∧
        Trivia text ('/' :: '*' :: more) := by
  induction hlength : text.length using Nat.strong_induction_on generalizing text with
  | _ n ih =>
    subst hlength
    -- Whatever trivia come first, the reader goes on with a shorter text.
    have hgoesOn : ∀ more, more.length < text.length → skipTrivia text = skipTrivia more →
        (∀ rest, Trivia more rest → Trivia text rest) →
        (∃ rest, skipTrivia text = .ok rest ∧ Trivia text rest ∧ ¬ BeginsComment rest) ∨
          ∃ more, skipTrivia text = .error ⟨.unterminatedComment, '/' :: '*' :: more⟩ ∧
            Trivia text ('/' :: '*' :: more) := by
      intro more hshort hskip htrivia
      rw [hskip]
      rcases ih _ hshort more rfl with ⟨rest, hread, hrest, hcomment⟩ | ⟨rest, hread, hrest⟩
      · exact .inl ⟨rest, hread, htrivia rest hrest, hcomment⟩
      · exact .inr ⟨rest, hread, htrivia _ hrest⟩
    cases text with
    | nil => exact .inl ⟨[], by rw [skipTrivia], .none [], by simp [BeginsComment]⟩
    | cons c text =>
      by_cases hspace : isWhiteSpace c = true
      · exact hgoesOn text (by simp) (skipTrivia_space hspace text)
          fun rest hrest => .space hspace hrest
      by_cases hcomment : BeginsComment (c :: text)
      swap
      · exact .inl ⟨c :: text, skipTrivia_stop (by simpa using hspace) hcomment, .none _, hcomment⟩
      rcases hcomment with ⟨more, hmore⟩ | ⟨more, hmore⟩
      · obtain ⟨rfl, rfl⟩ : '/' = c ∧ '/' :: more = text := List.cons.inj hmore
        rcases skipLine_cases more with ⟨body, after, rfl, hbody, hline⟩ | ⟨hbody, hline⟩
        · refine hgoesOn after ?_ ?_ fun rest hrest => .line hbody hrest
          · simp only [List.length_cons, List.length_append]
            omega
          · exact (skipTrivia_lineComment _).trans hline
        · exact .inl ⟨[], (skipTrivia_lineComment _).trans hline, .lastLine hbody,
            by simp [BeginsComment]⟩
      · obtain ⟨rfl, rfl⟩ : '/' = c ∧ '*' :: more = text := List.cons.inj hmore
        rcases skipBlock_cases ('/' :: '*' :: more) more with
          ⟨body, after, rfl, hbody, hblock⟩ | hblock
        · refine hgoesOn after ?_ ?_ fun rest hrest => .block hbody hrest
          · simp only [List.length_cons, List.length_append]
            omega
          · exact (skipTrivia_blockComment _).trans hblock
        · exact .inr ⟨more, (skipTrivia_blockComment _).trans hblock, .none _⟩

lemma skipTrivia_sound {text rest : List Char} (h : skipTrivia text = .ok rest) :
    Trivia text rest ∧ ¬ BeginsComment rest := by
  rcases skipTrivia_cases text with ⟨found, hfound, hsound⟩ | ⟨more, hstuck, -⟩
  · rw [h] at hfound
    obtain rfl := Except.ok.inj hfound
    exact hsound
  · rw [h] at hstuck
    cases hstuck

/-! ## Strings -/

/-- What the text from a state of the reader on is, given what was read from there. -/
def QuotedFrom (quote : Char) :
    Escape → List Char → List Char → List Char → Prop
  | .none, text, content, rest => QuotedText quote text content rest
  | .started, text, content, rest => QuotedText quote ('\\' :: text) content rest
  | .codePoint room value, text, content, rest =>
    ∃ digits values after following, text = digits ++ after ∧
      digits.map hexDigit? = values.map some ∧ values.length = room + 1 ∧
      (ofDigits 16 value values).isValidChar ∧
      content = Char.ofNat (ofDigits 16 value values) :: following ∧
      QuotedText quote after following rest
  | .octal room value, text, content, rest =>
    ∃ digits values after following, text = digits ++ after ∧
      digits.map octalDigit? = values.map some ∧ values.length ≤ room ∧
      (values.length = room ∨ NotAhead (fun c => (octalDigit? c).isSome) after) ∧
      content = Char.ofNat (ofDigits 8 value values) :: following ∧
      QuotedText quote after following rest

lemma push_eq_ok {c : Char} {reading : Except Failure (List Char × List Char)}
    {content rest : List Char} (h : push c reading = .ok (content, rest)) :
    ∃ following, content = c :: following ∧ reading = .ok (following, rest) := by
  cases reading with
  | error e => cases h
  | ok made =>
    obtain ⟨following, left⟩ := made
    simp only [push, Except.ok.injEq, Prod.mk.injEq] at h
    exact ⟨following, h.1.symm, by rw [h.2]⟩

/-- A backslash that begins an octal escape. -/
lemma QuotedFrom.octal_escape {quote c : Char} {d : Nat} {text content rest : List Char}
    (hc : octalDigit? c = some d) (h : QuotedFrom quote (.octal 2 d) text content rest) :
    QuotedText quote ('\\' :: c :: text) content rest := by
  obtain ⟨digits, values, after, following, rfl, hdigits, hroom, hlongest, rfl, hafter⟩ := h
  have hvalue : ofDigits 8 d values = ofDigits 8 0 (d :: values) := by simp [ofDigits]
  rw [hvalue]
  show QuotedText quote ('\\' :: ((c :: digits) ++ after)) _ rest
  refine .octal ?_ (by simp) ?_ ?_ hafter
  · rw [List.map_cons, List.map_cons, hc, hdigits]
  · rw [List.length_cons]
    omega
  · rw [List.length_cons]
    exact hlongest.imp_left fun h => by rw [h]

/-- Outside an escape the reader takes one character, which is the quote, begins an escape or stands
for itself. -/
lemma QuotedFrom.ordinary {quote c : Char} {text content rest : List Char}
    (hnext : ∀ state content, readQuoted quote state text = .ok (content, rest) →
      QuotedFrom quote state text content rest)
    (h : readOrdinary quote c text (fun state => readQuoted quote state text) =
      .ok (content, rest)) :
    QuotedText quote (c :: text) content rest := by
  unfold readOrdinary at h
  by_cases hquote : c = quote
  · rw [if_pos hquote] at h
    obtain ⟨rfl, rfl⟩ := Prod.mk.inj (Except.ok.inj h)
    exact hquote ▸ .close text
  · rw [if_neg hquote] at h
    by_cases hslash : c = '\\'
    · rw [if_pos hslash] at h
      exact hslash ▸ hnext .started content h
    · rw [if_neg hslash] at h
      obtain ⟨following, rfl, hread⟩ := push_eq_ok h
      exact .plain hquote hslash (hnext .none following hread)

lemma quotedFrom_of_readQuoted {quote : Char} {state : Escape} {text content rest : List Char}
    (h : readQuoted quote state text = .ok (content, rest)) :
    QuotedFrom quote state text content rest := by
  induction text generalizing state content with
  | nil => cases state <;> simp [readQuoted] at h
  | cons c text ih =>
    have hordinary : ∀ content, readOrdinary quote c text
        (fun state => readQuoted quote state text) = .ok (content, rest) →
        QuotedText quote (c :: text) content rest :=
      fun content hread => QuotedFrom.ordinary (fun state content => ih) hread
    cases state with
    | none => exact hordinary content h
    | started =>
      rw [readQuoted] at h
      by_cases hcode : c = 'U'
      · rw [if_pos hcode] at h
        subst hcode
        obtain ⟨digits, values, after, following, rfl, hdigits, hfour, hvalid, rfl, hafter⟩ := ih h
        exact .codePoint hdigits hfour hvalid hafter
      · rw [if_neg hcode] at h
        cases hoctal : octalDigit? c with
        | some d =>
          rw [hoctal] at h
          exact (ih h).octal_escape hoctal
        | none =>
          rw [hoctal] at h
          obtain ⟨following, rfl, hread⟩ := push_eq_ok h
          exact .escaped hcode hoctal (ih hread)
    | codePoint room value =>
      rw [readQuoted.eq_def] at h
      cases hdigit : hexDigit? c with
      | none => simp [hdigit] at h
      | some d =>
        cases room with
        | zero =>
          simp only [hdigit] at h
          split at h
          · next hvalid =>
            obtain ⟨following, rfl, hread⟩ := push_eq_ok h
            exact ⟨[c], [d], text, following, rfl, by simp [hdigit], rfl, hvalid, rfl, ih hread⟩
          · cases h
        | succ room =>
          simp only [hdigit] at h
          obtain ⟨digits, values, after, following, rfl, hdigits, hroom, hvalid, rfl, hafter⟩ :=
            ih h
          exact ⟨c :: digits, d :: values, after, following, rfl, by simp [hdigit, hdigits],
            by rw [List.length_cons, hroom], hvalid, rfl, hafter⟩
    | octal room value =>
      -- The escape ends before `c` unless `c` is a digit that there is room for.
      have hstop : (room = 0 ∨ octalDigit? c = Option.none) →
          push (Char.ofNat value) (readOrdinary quote c text
            (fun state => readQuoted quote state text)) = .ok (content, rest) →
          QuotedFrom quote (.octal room value) (c :: text) content rest := by
        intro hend hpush
        obtain ⟨following, rfl, hread⟩ := push_eq_ok hpush
        refine ⟨[], [], c :: text, following, rfl, rfl, Nat.zero_le _, ?_, rfl,
          hordinary following hread⟩
        rcases hend with rfl | hnone
        · exact .inl rfl
        · exact .inr (by simp [NotAhead, hnone])
      rw [readQuoted.eq_def] at h
      cases hdigit : octalDigit? c with
      | none =>
        simp only [hdigit] at h
        exact hstop (.inr hdigit) h
      | some d =>
        cases room with
        | zero =>
          simp only [hdigit] at h
          exact hstop (.inl rfl) h
        | succ room =>
          simp only [hdigit] at h
          obtain ⟨digits, values, after, following, rfl, hdigits, hroom, hlongest, rfl, hafter⟩ :=
            ih h
          refine ⟨c :: digits, d :: values, after, following, rfl, by simp [hdigit, hdigits], ?_,
            ?_, rfl, hafter⟩
          · rw [List.length_cons]
            omega
          · rw [List.length_cons]
            exact hlongest.imp_left fun h => by rw [h]

lemma stringText_of_readString {text rest : List Char} {content : String}
    (h : readString text = .ok (content, rest)) (hcomment : ¬ BeginsComment text) :
    StringText text content rest := by
  cases text with
  | nil => cases h
  | cons c text =>
    rw [readString] at h
    by_cases hquote : c = '"' ∨ c = '\x27'
    · rw [if_pos hquote] at h
      split at h
      · next inside left hread =>
        obtain ⟨rfl, rfl⟩ := Prod.mk.inj (Except.ok.inj h)
        exact .quoted hquote (quotedFrom_of_readQuoted hread)
      · cases h
    · rw [if_neg hquote] at h
      split at h
      · next hbare =>
        obtain ⟨rfl, rfl⟩ := Prod.mk.inj (Except.ok.inj h)
        have hsplit : c :: text = (c :: text.takeWhile isBare) ++ text.dropWhile isBare := by
          rw [List.cons_append, List.takeWhile_append_dropWhile]
        rw [hsplit] at hcomment ⊢
        refine .bare (by simp) ?_ ?_ hcomment
        · intro d hd
          rcases List.mem_cons.mp hd with rfl | hd
          · exact hbare
          · exact List.mem_takeWhile_imp hd
        · intro d hd
          have hfirst := List.head?_dropWhile_not isBare text
          rw [Option.mem_def.mp hd] at hfirst
          exact hfirst
      · cases h

/-! ## Values -/

lemma expect_eq_ok {wanted : Char} {text rest : List Char} (h : expect wanted text = .ok rest) :
    text = wanted :: rest := by
  cases text with
  | nil => cases h
  | cons c text =>
    rw [expect] at h
    split at h
    · next hc => rw [hc, Except.ok.inj h]
    · cases h

/-- What each of the three readers of values accepts with a given bound. -/
structure SoundAt (bound : Nat) : Prop where
  /-- Where no comment begins, a value that is read is one. -/
  value : ∀ {text rest value}, readValue bound text = .ok (value, rest) →
    ¬ BeginsComment text → ValueText text value rest
  /-- Items that are read are the items of an array. -/
  items : ∀ {text rest items}, readItems bound text = .ok (items, rest) →
    ItemsText text items rest
  /-- Entries that are read are entries of a dictionary, inserted one after the other. -/
  entries : ∀ {text rest read result}, readEntries bound read text = .ok (result, rest) →
    ∃ entries, EntriesText text entries rest ∧
      result = entries.foldl (fun d entry => Dict.insert d entry.1 entry.2) read

lemma SoundAt.value_succ {bound : Nat} (ih : SoundAt bound) {text rest : List Char}
    {value : Value} (h : readValue (bound + 1) text = .ok (value, rest))
    (hcomment : ¬ BeginsComment text) : ValueText text value rest := by
  cases text with
  | nil => cases h
  | cons c text =>
    rw [readValue] at h
    split at h
    · next hbrace =>
      obtain ⟨⟨result, left⟩, hread, hresult⟩ := exists_of_bind_eq_ok h
      obtain ⟨rfl, rfl⟩ := Prod.mk.inj (Except.ok.inj hresult)
      obtain ⟨entries, hentries, rfl⟩ := ih.entries hread
      exact hbrace ▸ .dictionary hentries
    · split at h
      · next hparen =>
        obtain ⟨⟨items, left⟩, hread, hresult⟩ := exists_of_bind_eq_ok h
        obtain ⟨rfl, rfl⟩ := Prod.mk.inj (Except.ok.inj hresult)
        exact hparen ▸ .array (ih.items hread)
      · obtain ⟨⟨content, left⟩, hread, hresult⟩ := exists_of_bind_eq_ok h
        obtain ⟨rfl, rfl⟩ := Prod.mk.inj (Except.ok.inj hresult)
        exact .string (stringText_of_readString hread hcomment)

lemma SoundAt.items_succ {bound : Nat} (ih : SoundAt bound) {text rest : List Char}
    {items : List Value} (h : readItems (bound + 1) text = .ok (items, rest)) :
    ItemsText text items rest := by
  rw [readItems] at h
  obtain ⟨start, hskip, h⟩ := exists_of_bind_eq_ok h
  obtain ⟨hbefore, hcomment⟩ := skipTrivia_sound hskip
  split at h
  · next hclose =>
    obtain ⟨rfl, rfl⟩ := Prod.mk.inj (Except.ok.inj h)
    obtain ⟨more, rfl⟩ := List.head?_eq_some_iff.mp hclose
    exact .close hbefore
  · obtain ⟨⟨item, stop⟩, hvalue, h⟩ := exists_of_bind_eq_ok h
    have hitem := ih.value hvalue hcomment
    obtain ⟨after, hskip, h⟩ := exists_of_bind_eq_ok h
    obtain ⟨hafter, -⟩ := skipTrivia_sound hskip
    cases after with
    | nil => cases h
    | cons c more =>
      simp only at h
      split at h
      · next hcomma =>
        subst hcomma
        obtain ⟨⟨others, left⟩, hread, hresult⟩ := exists_of_bind_eq_ok h
        obtain ⟨rfl, rfl⟩ := Prod.mk.inj (Except.ok.inj hresult)
        exact .cons hbefore hitem hafter (ih.items hread)
      · split at h
        · next hclose =>
          subst hclose
          obtain ⟨rfl, rfl⟩ := Prod.mk.inj (Except.ok.inj h)
          exact .last hbefore hitem hafter
        · cases h

lemma SoundAt.entries_succ {bound : Nat} (ih : SoundAt bound) {text rest : List Char}
    {read result : Dict Value} (h : readEntries (bound + 1) read text = .ok (result, rest)) :
    ∃ entries, EntriesText text entries rest ∧
      result = entries.foldl (fun d entry => Dict.insert d entry.1 entry.2) read := by
  rw [readEntries] at h
  obtain ⟨start, hskip, h⟩ := exists_of_bind_eq_ok h
  obtain ⟨hbefore, hcomment⟩ := skipTrivia_sound hskip
  split at h
  · next hclose =>
    obtain ⟨rfl, rfl⟩ := Prod.mk.inj (Except.ok.inj h)
    obtain ⟨more, rfl⟩ := List.head?_eq_some_iff.mp hclose
    exact ⟨[], .close hbefore, rfl⟩
  · obtain ⟨⟨key, keyStop⟩, hname, h⟩ := exists_of_bind_eq_ok h
    obtain ⟨afterName, hskipName, h⟩ := exists_of_bind_eq_ok h
    obtain ⟨equals, hequals, h⟩ := exists_of_bind_eq_ok h
    obtain ⟨valueStart, hskipStart, h⟩ := exists_of_bind_eq_ok h
    obtain ⟨⟨value, valueStop⟩, hvalue, h⟩ := exists_of_bind_eq_ok h
    obtain ⟨afterValue, hskipValue, h⟩ := exists_of_bind_eq_ok h
    obtain ⟨more, hsemicolon, h⟩ := exists_of_bind_eq_ok h
    obtain rfl := expect_eq_ok hequals
    obtain rfl := expect_eq_ok hsemicolon
    obtain ⟨hbeforeValue, hvalueComment⟩ := skipTrivia_sound hskipStart
    obtain ⟨entries, hentries, hresult⟩ := ih.entries h
    refine ⟨(key, value) :: entries, ?_, hresult⟩
    exact .cons hbefore (stringText_of_readString hname hcomment) (skipTrivia_sound hskipName).1
      hbeforeValue (ih.value hvalue hvalueComment) (skipTrivia_sound hskipValue).1 hentries

lemma soundAt (bound : Nat) : SoundAt bound := by
  induction bound with
  | zero =>
    refine ⟨?_, ?_, ?_⟩
    · intro text rest value h
      cases h
    · intro text rest items h
      cases h
    · intro text rest read result h
      cases h
  | succ bound ih => exact ⟨ih.value_succ, ih.items_succ, ih.entries_succ⟩

/-! ## Whole texts -/

theorem documentText_of_readDocument {text : List Char} {value : Value}
    (h : readDocument text = .ok value) : DocumentText text value := by
  rw [readDocument] at h
  obtain ⟨start, hskip, h⟩ := exists_of_bind_eq_ok h
  obtain ⟨⟨read, stop⟩, hvalue, h⟩ := exists_of_bind_eq_ok h
  obtain ⟨after, hskipAfter, h⟩ := exists_of_bind_eq_ok h
  obtain ⟨hbefore, hcomment⟩ := skipTrivia_sound hskip
  split at h
  · next hend =>
    obtain rfl := Except.ok.inj h
    obtain rfl := List.isEmpty_iff.mp hend
    exact ⟨start, stop, hbefore, (soundAt _).value hvalue hcomment,
      (skipTrivia_sound hskipAfter).1⟩
  · cases h

/-- A text that is read is derived by the grammar, less a byte order mark in front. -/
theorem documentText_of_parse {text : String} {value : Value} (h : parse text = .ok value) :
    DocumentText (dropByteOrderMark text.toList) value := by
  simp only [parse] at h
  split at h
  · next read hread =>
    obtain rfl := Except.ok.inj h
    exact documentText_of_readDocument hread
  · cases h

end XcodeProject.PropertyList
