import Mathlib
import XcodeProject.PropertyList.Layout
import XcodeProject.Proofs.PropertyList.CanonicalValues

/-!
# What is written reads as what it was written from

The written form of a value is a notation of that value, on lines (`exists_denotes_lines`) or on
one line (`denotes_inline`).  How strings are spelled is left open here as it is in the layout: all
that is asked of a spelling is that it reads as the string it spells, perhaps with comments after it
(`Faithful`).

A piece of text is described by what it does in front of other text.  `Denotes body value` says that
`body` reads as `value` whatever delimiter comes next, and `IsEntryText text entry` that `text` puts
one more entry in front of the entries of a dictionary.  Pieces described in this way can be laid
end to end, which is all that a layout does.
-/

namespace XcodeProject.PropertyList

open XcodeProject.Text

/-- What comes next continues neither a bare string nor, after a slash, a comment. -/
def Delimited (rest : List Char) : Prop :=
  NotAhead (fun c => isBare c || c == '*') rest

/-- The text reads as a string, perhaps with trivia after it. -/
def Spells (text : List Char) (content : String) : Prop :=
  ∀ rest, Delimited rest → ∃ stop, StringText (text ++ rest) content stop ∧ Trivia stop rest

/-- The text reads as a value, perhaps with trivia after it. -/
def Denotes (text : List Char) (value : Value) : Prop :=
  ∀ rest, Delimited rest → PaddedValueText (text ++ rest) value rest

/-- Every string is spelled by a text that reads as it. -/
def Faithful (spell : Spelling) : Prop :=
  ∀ key content, Spells (spell key content).toList content

lemma blank_nil : Blank [] := by
  simp [Blank]

lemma blank_space : Blank [' '] := by
  intro c hc
  rw [List.mem_singleton.mp hc]
  decide

lemma blank_newline : Blank ['\n'] := by
  intro c hc
  rw [List.mem_singleton.mp hc]
  decide

lemma blank_tabs (depth : Nat) : Blank (tabs depth).toList := by
  intro c hc
  rw [tabs, String.toList_ofList] at hc
  rw [List.eq_of_mem_replicate hc]
  decide

lemma delimited_cons {c : Char} (h : (isBare c || c == '*') = false) (rest : List Char) :
    Delimited (c :: rest) := by
  simpa [Delimited, NotAhead] using h

lemma Spells.denotes {text : List Char} {content : String} (h : Spells text content) :
    Denotes text (.string content) := by
  intro rest hrest
  obtain ⟨stop, hstring, htrivia⟩ := h rest hrest
  exact ⟨stop, .string hstring, htrivia⟩

/-! ## Quoting -/

lemma isBare_of_isPlainChar {c : Char} (h : isPlainChar c = true) : isBare c = true := by
  simp only [isPlainChar, isBare, Bool.or_eq_true, List.mem_cons, List.not_mem_nil, or_false,
    decide_eq_true_eq] at h ⊢
  tauto

lemma hasRun_of_infix {run text : List Char} (h : run <:+: text) : hasRun run text = true := by
  induction text with
  | nil =>
    rw [List.infix_nil] at h
    simp [hasRun, h]
  | cons c text ih =>
    rw [hasRun, Bool.or_eq_true]
    rcases List.infix_cons_iff.mp h with hahead | hinside
    · exact .inl (List.isPrefixOf_iff_prefix.mpr hahead)
    · exact .inr (ih hinside)

/-- A plain string begins no comment: it has no two slashes in a row, and what follows a single
slash at its end is neither a slash nor a star. -/
lemma not_beginsComment_of_isPlain {text rest : List Char} (hplain : isPlain text = true)
    (hrest : Delimited rest) : ¬ BeginsComment (text ++ rest) := by
  simp only [isPlain, Bool.and_eq_true, Bool.not_eq_true', List.all_eq_true] at hplain
  obtain ⟨⟨⟨hsome, hchars⟩, hslashes⟩, -⟩ := hplain
  match text, hsome with
  | [c], _ =>
    rintro (⟨more, hmore⟩ | ⟨more, hmore⟩)
    · simp only [List.cons_append, List.nil_append, List.cons.injEq] at hmore
      have hnext := hrest '/' (by simp [← hmore.2])
      exact absurd hnext (by decide)
    · simp only [List.cons_append, List.nil_append, List.cons.injEq] at hmore
      have hnext := hrest '*' (by simp [← hmore.2])
      exact absurd hnext (by decide)
  | c :: d :: text, _ =>
    rintro (⟨more, hmore⟩ | ⟨more, hmore⟩)
    · simp only [List.cons_append, List.nil_append, List.cons.injEq] at hmore
      obtain ⟨rfl, rfl, -⟩ := hmore
      have hrun : hasRun ['/', '/'] ('/' :: '/' :: text) = true :=
        hasRun_of_infix ⟨[], text, rfl⟩
      rw [hslashes] at hrun
      cases hrun
    · simp only [List.cons_append, List.nil_append, List.cons.injEq] at hmore
      obtain ⟨rfl, rfl, -⟩ := hmore
      have hstar := hchars '*' (by simp)
      exact absurd hstar (by decide)

/-- The four digits in which a control character is written. -/
lemma map_hexCode {n : Nat} (h : n < 128) :
    (hexCode n).map hexDigit? = [0, 0, n / 16, n % 16].map some := by
  have hall : ∀ m : Fin 128,
      (hexCode m).map hexDigit? = [0, 0, m.val / 16, m.val % 16].map some := by decide
  exact hall ⟨n, h⟩

/-- A character between double quotes, in front of a quoted text. -/
lemma quotedText_escapeChar {text content rest : List Char} (c : Char)
    (h : QuotedText '"' text content rest) :
    QuotedText '"' (escapeChar c ++ text) (c :: content) rest := by
  by_cases hquote : c = '"'
  · subst hquote
    exact .escaped (by decide) (by decide) h
  by_cases hslash : c = '\\'
  · subst hslash
    exact .escaped (by decide) (by decide) h
  by_cases hline : c = '\n'
  · subst hline
    exact QuotedText.escaped (by decide : 'n' ≠ 'U') (by decide) h
  by_cases htab : c = '\t'
  · subst htab
    exact QuotedText.escaped (by decide : 't' ≠ 'U') (by decide) h
  by_cases hreturn : c = '\r'
  · subst hreturn
    exact QuotedText.escaped (by decide : 'r' ≠ 'U') (by decide) h
  simp only [escapeChar, hquote, hslash, hline, htab, hreturn, if_false]
  split
  · next hcontrol =>
    have hsmall : c.toNat < 128 := by omega
    have hvalue : ofDigits 16 0 [0, 0, c.toNat / 16, c.toNat % 16] = c.toNat := by
      simp only [ofDigits, List.foldl_cons, List.foldl_nil]
      omega
    have hcode := QuotedText.codePoint (map_hexCode hsmall) rfl
      (by rw [hvalue]; exact .inl (by omega)) h
    rwa [hvalue, Char.ofNat_toNat] at hcode
  · exact .plain hquote hslash h

lemma quotedText_flatMap_escapeChar (content rest : List Char) :
    QuotedText '"' (content.flatMap escapeChar ++ '"' :: rest) content rest := by
  induction content with
  | nil => exact .close rest
  | cons c content ih =>
    rw [List.flatMap_cons, List.append_assoc]
    exact quotedText_escapeChar c ih

/-- The written form of a string reads as the string. -/
theorem stringText_quote (content : String) {rest : List Char} (hrest : Delimited rest) :
    StringText ((quote content).toList ++ rest) content rest := by
  unfold quote
  split
  · next hplain =>
    have hcomment := not_beginsComment_of_isPlain hplain hrest
    simp only [isPlain, Bool.and_eq_true, Bool.not_eq_true', List.all_eq_true] at hplain
    have hbare : StringText (content.toList ++ rest) (String.ofList content.toList) rest := by
      refine .bare ?_ ?_ ?_ hcomment
      · simpa using hplain.1.1.1
      · exact fun c hc => isBare_of_isPlainChar (hplain.1.1.2 c hc)
      · exact fun c hc => (Bool.or_eq_false_iff.mp (hrest c hc)).1
    rwa [String.ofList_toList] at hbare
  · have hquoted := StringText.quoted (.inl rfl) (quotedText_flatMap_escapeChar content.toList rest)
    rw [String.ofList_toList] at hquoted
    simpa using hquoted

lemma spells_quote (content : String) : Spells (quote content).toList content :=
  fun rest hrest => ⟨rest, stringText_quote content hrest, .none rest⟩

/-! ## Pieces of arrays and dictionaries -/

lemma ItemsText.skip {text start rest : List Char} {items : List Value} (h : Trivia text start)
    (more : ItemsText start items rest) : ItemsText text items rest := by
  cases more with
  | close before => exact .close (h.trans before)
  | last before value after => exact .last (h.trans before) value after
  | cons before value after others => exact .cons (h.trans before) value after others

lemma EntriesText.skip {text start rest : List Char} {entries : List (String × Value)}
    (h : Trivia text start) (more : EntriesText start entries rest) :
    EntriesText text entries rest := by
  cases more with
  | close before => exact .close (h.trans before)
  | cons before name afterName beforeValue content afterValue others =>
    exact .cons (h.trans before) name afterName beforeValue content afterValue others

/-- In front of the items of an array, the text is one more item. -/
def IsItemText (text : List Char) (item : Value) : Prop :=
  ∀ ⦃more items rest⦄, ItemsText more items rest → ItemsText (text ++ more) (item :: items) rest

/-- In front of the entries of a dictionary, the text is one more entry. -/
def IsEntryText (text : List Char) (entry : String × Value) : Prop :=
  ∀ ⦃more entries rest⦄, EntriesText more entries rest →
    EntriesText (text ++ more) (entry :: entries) rest

lemma isItemText_of_denotes {before body after : List Char} {item : Value}
    (hbefore : Blank before) (hbody : Denotes body item)
    (hafter : Blank after) :
    IsItemText (before ++ body ++ ',' :: after) item := by
  intro more items rest hmore
  have hothers : ItemsText (after ++ more) items rest := hmore.skip (.blank hafter (.none more))
  have hitem := hbody (',' :: (after ++ more)) (delimited_cons (by decide) _)
  have htext := ItemsText.cons_padded (.blank hbefore (.none _)) hitem hothers
  simpa using htext

/-- An entry is its key, an equals sign between two spaces, its value and a semicolon. -/
lemma isEntryText_of_denotes {before name body after : List Char} {key : String} {value : Value}
    (hbefore : Blank before) (hname : Spells name key)
    (hbody : Denotes body value) (hafter : Blank after) :
    IsEntryText (before ++ name ++ " = ".toList ++ body ++ ';' :: after) (key, value) := by
  intro more entries rest hmore
  have hothers : EntriesText (after ++ more) entries rest :=
    hmore.skip (.blank hafter (.none more))
  have hvalue := hbody (';' :: (after ++ more)) (delimited_cons (by decide) _)
  obtain ⟨stop, hkey, hstop⟩ := hname (" = ".toList ++ (body ++ ';' :: (after ++ more)))
    (delimited_cons (by decide) _)
  have hequals : Trivia (" = ".toList ++ (body ++ ';' :: (after ++ more)))
      ('=' :: ' ' :: (body ++ ';' :: (after ++ more))) := .space (by decide) (.none _)
  have htext := EntriesText.cons_padded (.blank hbefore (.none _)) hkey (hstop.trans hequals)
    (.space (by decide) (.none _)) hvalue hothers
  simpa using htext

lemma itemsText_flatMap {write : Value → List Char} {parts : List Value}
    (h : ∀ part ∈ parts, IsItemText (write part) part) {more rest : List Char}
    {items : List Value} (hmore : ItemsText more items rest) :
    ItemsText (parts.flatMap write ++ more) (parts ++ items) rest := by
  induction parts with
  | nil => exact hmore
  | cons part parts ih =>
    obtain ⟨hpart, hparts⟩ := List.forall_mem_cons.mp h
    rw [List.flatMap_cons, List.append_assoc]
    exact hpart (ih hparts)

lemma entriesText_flatMap {write : String × Value → List Char} {parts : List (String × Value)}
    (h : ∀ part ∈ parts, IsEntryText (write part) part) {more rest : List Char}
    {entries : List (String × Value)} (hmore : EntriesText more entries rest) :
    EntriesText (parts.flatMap write ++ more) (parts ++ entries) rest := by
  induction parts with
  | nil => exact hmore
  | cons part parts ih =>
    obtain ⟨hpart, hparts⟩ := List.forall_mem_cons.mp h
    rw [List.flatMap_cons, List.append_assoc]
    exact hpart (ih hparts)

lemma denotes_array {write : Value → List Char} {items : List Value} {before after : List Char}
    (hitems : ∀ item ∈ items, IsItemText (write item) item)
    (hbefore : Blank before)
    (hafter : Blank after) :
    Denotes ('(' :: (before ++ items.flatMap write ++ after ++ [')'])) (.array items) := by
  intro rest _
  have hclose : ItemsText (after ++ ')' :: rest) [] rest := .close (.blank hafter (.none _))
  have hinside := itemsText_flatMap hitems hclose
  rw [List.append_nil] at hinside
  refine ⟨rest, .array ?_, .none rest⟩
  simpa using hinside.skip (.blank hbefore (.none _))

/-- The entries of a dictionary may stand in any order. -/
lemma denotes_dictionary {write : String × Value → List Char}
    {order entries : List (String × Value)} {before after : List Char}
    (hsorted : Dict.Sorted entries) (hperm : order.Perm entries)
    (hentries : ∀ entry ∈ order, IsEntryText (write entry) entry)
    (hbefore : Blank before)
    (hafter : Blank after) :
    Denotes ('{' :: (before ++ order.flatMap write ++ after ++ ['}'])) (.dictionary entries) := by
  intro rest _
  have hclose : EntriesText (after ++ '}' :: rest) [] rest := .close (.blank hafter (.none _))
  have hinside := entriesText_flatMap hentries hclose
  rw [List.append_nil] at hinside
  have hdictionary := ValueText.dictionary (hinside.skip (.blank hbefore (.none _)))
  rw [Dict.ofEntries_eq_of_perm hsorted hperm] at hdictionary
  refine ⟨rest, ?_, .none rest⟩
  simpa using hdictionary

/-! ## Layouts by their parts -/

/-- The text of lines, each with its line feed. -/
def textOf (lines : List String) : List Char :=
  lines.flatMap fun line => line.toList ++ ['\n']

@[simp] lemma textOf_nil : textOf [] = [] :=
  rfl

@[simp] lemma textOf_cons (line : String) (lines : List String) :
    textOf (line :: lines) = line.toList ++ '\n' :: textOf lines := by
  simp [textOf]

@[simp] lemma textOf_append (lines more : List String) :
    textOf (lines ++ more) = textOf lines ++ textOf more := by
  simp [textOf]

lemma textOf_flatMap {α : Type} (f : α → List String) (parts : List α) :
    textOf (parts.flatMap f) = parts.flatMap fun part => textOf (f part) := by
  simp [textOf, List.flatMap_assoc]

lemma isaFirst_map {α β : Type} (f : String × α → β) (entries : List (String × α)) :
    isaFirst (entries.map fun entry => (entry.1, f entry)) =
      (isaFirst entries).map fun entry => (entry.1, f entry) := by
  simp [isaFirst, List.filter_map, Function.comp_def]

lemma isaFirst_perm {α : Type} (entries : List (String × α)) :
    (isaFirst entries).Perm entries := by
  have hsplit := List.filter_append_perm
    (fun entry : String × α => decide (entry.1 = "isa")) entries
  simpa [isaFirst] using hsplit

namespace Value

/-- The head of the lines of an entry: its key and the equals sign. -/
def entryHead (depth : Nat) (key : String) : String :=
  tabs depth ++ quote key ++ " = "

lemma itemLines_eq (spell : Spelling) (depth : Nat) (items : List Value) :
    itemLines spell depth items =
      items.flatMap fun item => lines spell depth (tabs depth) "," none item := by
  induction items with
  | nil => simp [itemLines]
  | cons item rest ih => rw [itemLines, ih, List.flatMap_cons]

lemma entryLines_eq (spell : Spelling) (depth : Nat) (entries : List (String × Value)) :
    entryLines spell depth entries = entries.map fun entry =>
      (entry.1, lines spell depth (entryHead depth entry.1) ";" (some entry.1) entry.2) := by
  induction entries with
  | nil => simp [entryLines]
  | cons entry rest ih =>
    obtain ⟨key, value⟩ := entry
    rw [entryLines, ih, List.map_cons, entryHead]

lemma inlineItems_eq (spell : Spelling) (items : List Value) :
    (inlineItems spell items).toList =
      items.flatMap fun item => (inline spell none item).toList ++ ", ".toList := by
  induction items with
  | nil => simp [inlineItems]
  | cons item rest ih => simp [inlineItems, ih]

lemma inlineEntries_eq (spell : Spelling) (entries : List (String × Value)) :
    inlineEntries spell entries = entries.map fun entry =>
      (entry.1, quote entry.1 ++ " = " ++ inline spell (some entry.1) entry.2 ++ "; ") := by
  induction entries with
  | nil => simp [inlineEntries]
  | cons entry rest ih =>
    obtain ⟨key, value⟩ := entry
    rw [inlineEntries, ih, List.map_cons]

/-! ## Values -/

/-- The lines of an entry: a head with its name, a notation of its value, and a semicolon. -/
lemma isEntryText_lines (depth : Nat) {head key : String} {name body : List Char} {value : Value}
    (hhead : head.toList = (tabs depth).toList ++ name ++ " = ".toList) (hname : Spells name key)
    (hbody : Denotes body value) :
    IsEntryText (head.toList ++ body ++ (";".toList ++ ['\n'])) (key, value) := by
  rw [hhead]
  exact isEntryText_of_denotes (blank_tabs depth) hname hbody blank_newline

/-- The lines of a value are its head, a notation of the value, and its tail. -/
theorem exists_denotes_lines {spell : Spelling} (hspell : Faithful spell) {value : Value}
    (hcanonical : value.Canonical) (depth : Nat) (head tail : String) (key : Option String) :
    ∃ body, Denotes body value ∧
      textOf (lines spell depth head tail key value) =
        head.toList ++ body ++ (tail.toList ++ ['\n']) := by
  induction value generalizing depth head tail key with
  | string content =>
    refine ⟨(spell key content).toList, (hspell key content).denotes, ?_⟩
    simp [lines]
  | array items ih =>
    rw [canonical_array] at hcanonical
    have hitems : ∀ item ∈ items, IsItemText
        (textOf (lines spell (depth + 1) (tabs (depth + 1)) "," none item)) item := by
      intro item hmem
      obtain ⟨body, hbody, htext⟩ :=
        ih item hmem (hcanonical item hmem) (depth + 1) (tabs (depth + 1)) "," none
      rw [htext]
      exact isItemText_of_denotes (blank_tabs _) hbody blank_newline
    refine ⟨_, denotes_array hitems blank_newline (blank_tabs depth), ?_⟩
    simp [lines, itemLines_eq, textOf_flatMap]
  | dictionary entries ih =>
    rw [canonical_dictionary] at hcanonical
    have hentries : ∀ entry ∈ isaFirst entries, IsEntryText
        (textOf (lines spell (depth + 1) (entryHead (depth + 1) entry.1) ";" (some entry.1)
          entry.2)) entry := by
      intro entry hmem
      have hmem := (isaFirst_perm entries).mem_iff.mp hmem
      obtain ⟨body, hbody, htext⟩ := ih entry hmem (hcanonical.2 entry hmem) (depth + 1)
        (entryHead (depth + 1) entry.1) ";" (some entry.1)
      rw [htext]
      exact isEntryText_lines (depth + 1) (by simp [entryHead]) (spells_quote entry.1) hbody
    refine ⟨_, denotes_dictionary hcanonical.1 (isaFirst_perm entries) hentries
      blank_newline (blank_tabs depth), ?_⟩
    simp [lines, entryLines_eq, isaFirst_map, textOf_flatMap, List.flatMap_map]

/-- A value on one line is a notation of the value. -/
theorem denotes_inline {spell : Spelling} (hspell : Faithful spell) {value : Value}
    (hcanonical : value.Canonical) (key : Option String) :
    Denotes (inline spell key value).toList value := by
  induction value generalizing key with
  | string content => exact (hspell key content).denotes
  | array items ih =>
    rw [canonical_array] at hcanonical
    have hitems : ∀ item ∈ items,
        IsItemText ((inline spell none item).toList ++ ", ".toList) item := by
      intro item hmem
      have hbody := ih item hmem (hcanonical item hmem) none
      exact isItemText_of_denotes blank_nil hbody blank_space
    have harray := denotes_array hitems blank_nil blank_nil
    simpa [inline, inlineItems_eq] using harray
  | dictionary entries ih =>
    rw [canonical_dictionary] at hcanonical
    have hentries : ∀ entry ∈ isaFirst entries, IsEntryText
        (quote entry.1 ++ " = " ++ inline spell (some entry.1) entry.2 ++ "; ").toList entry := by
      intro entry hmem
      have hmem := (isaFirst_perm entries).mem_iff.mp hmem
      have hbody := ih entry hmem (hcanonical.2 entry hmem) (some entry.1)
      have hentry := isEntryText_of_denotes blank_nil (spells_quote entry.1) hbody blank_space
      simpa using hentry
    have hdictionary := denotes_dictionary hcanonical.1 (isaFirst_perm entries) hentries
      blank_nil blank_nil
    simpa [inline, inlineEntries_eq, isaFirst_map, String.toList_join, List.flatMap_map]
      using hdictionary

end Value

end XcodeProject.PropertyList
