import Mathlib
import XcodeProject.PropertyList.Reader

/-!
# The notation of property lists, as a relation

`ValueText text value rest` says that `text` begins with a notation of `value` and that `rest` is
what follows it.  The relation is given by the productions of the notation alone; it does not say
how a text is read.

Three of the productions look at what follows.  A bare string is as long as it can be, and it does
not begin where a comment begins, because a slash may stand in a bare string (`StringText.bare`).
An octal escape is as long as it can be, up to three digits (`QuotedText.octal`).  A line comment
that no line feed ends runs to the end of the text (`Trivia.lastLine`).

Between tokens stands `Trivia`: white space and comments, as much of it as one likes.  A derivation
may stop inside white space and let the next production go on; what it cannot do is to take the
beginning of a comment for a string.
-/

namespace XcodeProject.PropertyList

open XcodeProject.Text

/-- The characters that end a block comment. -/
def commentEnd : List Char :=
  ['*', '/']

/-- A comment begins here. -/
def BeginsComment (text : List Char) : Prop :=
  ['/', '/'] <+: text ∨ ['/', '*'] <+: text

/-- The text does not begin with a character of a class. -/
def NotAhead (ofClass : Char → Bool) (text : List Char) : Prop :=
  ∀ c ∈ text.head?, ofClass c = false

/-! ## Between tokens -/

/-- White space and comments, then `rest`. -/
inductive Trivia : List Char → List Char → Prop
  /-- Nothing at all. -/
  | none (rest : List Char) : Trivia rest rest
  /-- A character of white space. -/
  | space {c : Char} {text rest : List Char} (hspace : isWhiteSpace c = true)
      (more : Trivia text rest) : Trivia (c :: text) rest
  /-- A comment through the end of the line. -/
  | line {body text rest : List Char} (hbody : '\n' ∉ body) (more : Trivia text rest) :
      Trivia ('/' :: '/' :: (body ++ '\n' :: text)) rest
  /-- A comment on the last line of the text. -/
  | lastLine {body : List Char} (hbody : '\n' ∉ body) : Trivia ('/' :: '/' :: body) []
  /-- A block comment, which its first end ends. -/
  | block {body text rest : List Char} (hbody : ¬ commentEnd <:+: body)
      (more : Trivia text rest) : Trivia ('/' :: '*' :: (body ++ '*' :: '/' :: text)) rest

/-! ## Strings -/

/-- The number that digits to a base make when they follow those of `value`. -/
def ofDigits (base value : Nat) (digits : List Nat) : Nat :=
  digits.foldl (fun n d => base * n + d) value

/-- The inside of a string between quotes, through the closing quote. -/
inductive QuotedText (quote : Char) : List Char → List Char → List Char → Prop
  /-- The closing quote. -/
  | close (rest : List Char) : QuotedText quote (quote :: rest) [] rest
  /-- A character that stands for itself. -/
  | plain {c : Char} {text content rest : List Char} (hquote : c ≠ quote) (hslash : c ≠ '\\')
      (more : QuotedText quote text content rest) :
      QuotedText quote (c :: text) (c :: content) rest
  /-- A backslash and one more character. -/
  | escaped {c : Char} {text content rest : List Char} (hcode : c ≠ 'U')
      (hoctal : octalDigit? c = Option.none) (more : QuotedText quote text content rest) :
      QuotedText quote ('\\' :: c :: text) (unescape c :: content) rest
  /-- A code point in four hexadecimal digits. -/
  | codePoint {digits : List Char} {values : List Nat} {text content rest : List Char}
      (hdigits : digits.map hexDigit? = values.map some) (hfour : values.length = 4)
      (hvalid : (ofDigits 16 0 values).isValidChar) (more : QuotedText quote text content rest) :
      QuotedText quote ('\\' :: 'U' :: (digits ++ text))
        (Char.ofNat (ofDigits 16 0 values) :: content) rest
  /-- A code point in one to three octal digits, as many as there are. -/
  | octal {digits : List Char} {values : List Nat} {text content rest : List Char}
      (hdigits : digits.map octalDigit? = values.map some) (hsome : values ≠ [])
      (hthree : values.length ≤ 3)
      (hlongest : values.length = 3 ∨ NotAhead (fun c => (octalDigit? c).isSome) text)
      (more : QuotedText quote text content rest) :
      QuotedText quote ('\\' :: (digits ++ text))
        (Char.ofNat (ofDigits 8 0 values) :: content) rest

/-- A string, quoted or bare. -/
inductive StringText : List Char → String → List Char → Prop
  /-- Between double or single quotes. -/
  | quoted {quote : Char} {text content rest : List Char} (hquote : quote = '"' ∨ quote = '\x27')
      (more : QuotedText quote text content rest) :
      StringText (quote :: text) (String.ofList content) rest
  /-- A run of characters that need no quotes, as long as it can be. -/
  | bare {word rest : List Char} (hsome : word ≠ []) (hword : ∀ c ∈ word, isBare c = true)
      (hlongest : NotAhead isBare rest) (hcomment : ¬ BeginsComment (word ++ rest)) :
      StringText (word ++ rest) (String.ofList word) rest

/-! ## Values -/

mutual

/-- A value. -/
inductive ValueText : List Char → Value → List Char → Prop
  /-- A string. -/
  | string {text rest : List Char} {content : String} (more : StringText text content rest) :
      ValueText text (.string content) rest
  /-- An array. -/
  | array {text rest : List Char} {items : List Value} (more : ItemsText text items rest) :
      ValueText ('(' :: text) (.array items) rest
  /-- A dictionary; of two entries with one key the later one counts. -/
  | dictionary {text rest : List Char} {entries : List (String × Value)}
      (more : EntriesText text entries rest) :
      ValueText ('{' :: text) (.dictionary (Dict.ofEntries entries)) rest

/-- The items of an array, through its closing parenthesis. -/
inductive ItemsText : List Char → List Value → List Char → Prop
  /-- The closing parenthesis, after the opening one or after a comma. -/
  | close {text rest : List Char} (before : Trivia text (')' :: rest)) : ItemsText text [] rest
  /-- An item that no comma follows. -/
  | last {text start stop rest : List Char} {item : Value} (before : Trivia text start)
      (value : ValueText start item stop) (after : Trivia stop (')' :: rest)) :
      ItemsText text [item] rest
  /-- An item and a comma. -/
  | cons {text start stop more rest : List Char} {item : Value} {items : List Value}
      (before : Trivia text start) (value : ValueText start item stop)
      (after : Trivia stop (',' :: more)) (others : ItemsText more items rest) :
      ItemsText text (item :: items) rest

/-- The entries of a dictionary, through its closing brace. -/
inductive EntriesText : List Char → List (String × Value) → List Char → Prop
  /-- The closing brace. -/
  | close {text rest : List Char} (before : Trivia text ('}' :: rest)) : EntriesText text [] rest
  /-- A key, an equals sign, a value and a semicolon. -/
  | cons {text start keyStop equals valueStart valueStop more rest : List Char} {key : String}
      {value : Value} {entries : List (String × Value)} (before : Trivia text start)
      (name : StringText start key keyStop) (afterName : Trivia keyStop ('=' :: equals))
      (beforeValue : Trivia equals valueStart) (content : ValueText valueStart value valueStop)
      (afterValue : Trivia valueStop (';' :: more)) (others : EntriesText more entries rest) :
      EntriesText text ((key, value) :: entries) rest

end

/-- A whole text: one value, with nothing but white space and comments around it. -/
def DocumentText (text : List Char) (value : Value) : Prop :=
  ∃ start stop, Trivia text start ∧ ValueText start value stop ∧ Trivia stop []

/-! ## Putting derivations together -/

lemma Trivia.trans {text middle rest : List Char} (h : Trivia text middle)
    (h' : Trivia middle rest) : Trivia text rest := by
  induction h with
  | none => exact h'
  | space hspace _ ih => exact .space hspace (ih h')
  | line hbody _ ih => exact .line hbody (ih h')
  | lastLine hbody =>
    -- After a comment on the last line there is nothing left to pass over.
    cases h' with
    | none => exact .lastLine hbody
  | block hbody _ ih => exact .block hbody (ih h')

/-- White space and nothing else. -/
def Blank (text : List Char) : Prop :=
  ∀ c ∈ text, isWhiteSpace c = true

lemma Trivia.blank {spaces text rest : List Char} (hspaces : Blank spaces)
    (h : Trivia text rest) : Trivia (spaces ++ text) rest := by
  induction spaces with
  | nil => exact h
  | cons c spaces ih =>
    refine .space (hspaces c (List.mem_cons_self ..)) (ih fun d hd => ?_)
    exact hspaces d (List.mem_cons_of_mem _ hd)

/-- A value with trivia after it, up to `rest`. -/
def PaddedValueText (text : List Char) (value : Value) (rest : List Char) : Prop :=
  ∃ stop, ValueText text value stop ∧ Trivia stop rest

lemma ItemsText.cons_padded {text start more rest : List Char} {item : Value}
    {items : List Value} (before : Trivia text start)
    (value : PaddedValueText start item (',' :: more)) (others : ItemsText more items rest) :
    ItemsText text (item :: items) rest := by
  obtain ⟨stop, hvalue, hafter⟩ := value
  exact .cons before hvalue hafter others

lemma EntriesText.cons_padded {text start keyStop equals valueStart more rest : List Char}
    {key : String} {value : Value} {entries : List (String × Value)} (before : Trivia text start)
    (name : StringText start key keyStop) (afterName : Trivia keyStop ('=' :: equals))
    (beforeValue : Trivia equals valueStart)
    (content : PaddedValueText valueStart value (';' :: more))
    (others : EntriesText more entries rest) :
    EntriesText text ((key, value) :: entries) rest := by
  obtain ⟨stop, hvalue, hafter⟩ := content
  exact .cons before name afterName beforeValue hvalue hafter others

end XcodeProject.PropertyList
