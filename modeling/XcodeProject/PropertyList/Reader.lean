import XcodeProject.PropertyList.Fault
import XcodeProject.PropertyList.Value
import XcodeProject.Text.Basic

/-!
# Reading a property list

The notation is the old-style one:

* a dictionary is `{ key = value; ... }`, and a repeated key keeps its last value;
* an array is `( value, value )`, with a comma after the last item or not;
* a string stands between double or single quotes, with backslash escapes, or is a run of the
  characters `isBare` allows;
* between any two tokens stand white space, `//` comments and `/*` comments.

A reader takes the text that is left and gives what it read with the text that is left then.  A
`Failure` keeps the text that was left where reading stopped, from which `parse` computes the place.
Every reader recurses on its text, except that `readValue`, `readItems` and `readEntries` go down on
a bound: each of them passes on less text than it was given or hands the same text to the reader of
one value, so a bound of twice the length of the text is never used up.
-/

namespace XcodeProject.PropertyList

open XcodeProject.Text

/-- Reading stopped. -/
structure Failure where
  /-- Why it stopped. -/
  fault : Fault
  /-- The text that was left. -/
  rest : List Char
deriving DecidableEq, Repr

/-! ## Between tokens -/

mutual

/-- The text without the white space and comments at its front. -/
def skipTrivia : List Char → Except Failure (List Char)
  | [] => .ok []
  | c :: rest =>
    if isWhiteSpace c then skipTrivia rest
    else if c = '/' then
      match rest with
      | '/' :: more => skipLine more
      | '*' :: more => skipBlock (c :: rest) more
      | _ => .ok (c :: rest)
    else .ok (c :: rest)

/-- Inside a line comment, which ends with the line or the text. -/
def skipLine : List Char → Except Failure (List Char)
  | [] => .ok []
  | c :: rest => if c = '\n' then skipTrivia rest else skipLine rest

/-- Inside the block comment that began at `start`. -/
def skipBlock (start : List Char) : List Char → Except Failure (List Char)
  | [] => .error ⟨.unterminatedComment, start⟩
  | '*' :: '/' :: rest => skipTrivia rest
  | _ :: rest => skipBlock start rest

end

/-- The text after `wanted`, which must stand at its front. -/
def expect (wanted : Char) : List Char → Except Failure (List Char)
  | [] => .error ⟨.expectedCharacter wanted none, []⟩
  | c :: rest =>
    if c = wanted then .ok rest else .error ⟨.expectedCharacter wanted (some c), c :: rest⟩

/-! ## Strings -/

/-- The characters of a string without quotes. -/
def isBare (c : Char) : Bool :=
  c.isAlphanum || c ∈ ['_', '$', '+', '/', ':', '.', '-']

/-- The value of a hexadecimal digit of either case. -/
def hexDigit? (c : Char) : Option Nat :=
  if '0' ≤ c ∧ c ≤ '9' then some (c.toNat - '0'.toNat)
  else if 'a' ≤ c ∧ c ≤ 'f' then some (c.toNat - 'a'.toNat + 10)
  else if 'A' ≤ c ∧ c ≤ 'F' then some (c.toNat - 'A'.toNat + 10)
  else none

/-- The value of an octal digit. -/
def octalDigit? (c : Char) : Option Nat :=
  if '0' ≤ c ∧ c ≤ '7' then some (c.toNat - '0'.toNat) else none

/-- What a single character after a backslash stands for. -/
def unescape (c : Char) : Char :=
  match c with
  | 'n' => '\n'
  | 't' => '\t'
  | 'r' => '\r'
  | 'b' => '\x08'
  | 'f' => '\x0c'
  | 'v' => '\x0b'
  | 'a' => '\x07'
  | _ => c

/-- How far into an escape sequence the text before the next character goes. -/
inductive Escape where
  /-- Not in an escape sequence. -/
  | none
  /-- Right after a backslash. -/
  | started
  /-- In a code point: hexadecimal digits still to come, and the value so far. -/
  | codePoint (digits value : Nat)
  /-- In an octal number: digits that may still come, and the value so far. -/
  | octal (digits value : Nat)
deriving DecidableEq, Repr

/-- The same reading with one more character in front of what was read. -/
def push (c : Char) :
    Except Failure (List Char × List Char) → Except Failure (List Char × List Char)
  | .ok (text, rest) => .ok (c :: text, rest)
  | .error failure => .error failure

/-- Reads a character outside escape sequences; `next` reads the text after it. -/
def readOrdinary (quote c : Char) (rest : List Char)
    (next : Escape → Except Failure (List Char × List Char)) :
    Except Failure (List Char × List Char) :=
  if c = quote then .ok ([], rest)
  else if c = '\\' then next .started
  else push c (next .none)

/-- Reads the inside of a quoted string through the closing `quote`. -/
def readQuoted (quote : Char) : Escape → List Char → Except Failure (List Char × List Char)
  | .none, [] => .error ⟨.unterminatedString, []⟩
  | .started, [] => .error ⟨.unterminatedEscape, []⟩
  | .codePoint _ _, [] => .error ⟨.invalidCodePoint, []⟩
  | .octal _ _, [] => .error ⟨.unterminatedString, []⟩
  | .none, c :: rest => readOrdinary quote c rest fun state => readQuoted quote state rest
  | .started, c :: rest =>
    if c = 'U' then readQuoted quote (.codePoint 3 0) rest
    else
      match octalDigit? c with
      | some digit => readQuoted quote (.octal 2 digit) rest
      | Option.none => push (unescape c) (readQuoted quote .none rest)
  | .codePoint digits value, c :: rest =>
    match hexDigit? c, digits with
    | Option.none, _ => .error ⟨.invalidCodePoint, rest⟩
    | some digit, more + 1 => readQuoted quote (.codePoint more (16 * value + digit)) rest
    | some digit, 0 =>
      if (16 * value + digit).isValidChar then
        push (Char.ofNat (16 * value + digit)) (readQuoted quote .none rest)
      else .error ⟨.invalidCodePoint, rest⟩
  | .octal digits value, c :: rest =>
    match octalDigit? c, digits with
    | some digit, more + 1 => readQuoted quote (.octal more (8 * value + digit)) rest
    | _, _ =>
      push (Char.ofNat value)
        (readOrdinary quote c rest fun state => readQuoted quote state rest)

/-- Reads a string, quoted or bare. -/
def readString : List Char → Except Failure (String × List Char)
  | [] => .error ⟨.missingString, []⟩
  | c :: rest =>
    if c = '"' ∨ c = '\x27' then
      match readQuoted c .none rest with
      | .ok (text, rest) => .ok (String.ofList text, rest)
      | .error e => .error e
    else if isBare c then
      .ok (String.ofList (c :: rest.takeWhile isBare), rest.dropWhile isBare)
    else .error ⟨.unexpectedCharacter c, c :: rest⟩

/-! ## Values -/

mutual

/-- Reads a value. -/
def readValue : Nat → List Char → Except Failure (Value × List Char)
  | 0, text => .error ⟨.missingValue, text⟩
  | _ + 1, [] => .error ⟨.missingValue, []⟩
  | bound + 1, c :: rest =>
    if c = '{' then do
      let (entries, rest) ← readEntries bound [] rest
      return (.dictionary entries, rest)
    else if c = '(' then do
      let (items, rest) ← readItems bound rest
      return (.array items, rest)
    else do
      let (text, rest) ← readString (c :: rest)
      return (.string text, rest)

/-- Reads the items of an array through its closing parenthesis. -/
def readItems : Nat → List Char → Except Failure (List Value × List Char)
  | 0, text => .error ⟨.missingValue, text⟩
  | bound + 1, text => do
    let text ← skipTrivia text
    if text.head? = some ')' then
      return ([], text.tail)
    else
      let (item, text) ← readValue bound text
      match ← skipTrivia text with
      | [] => .error ⟨.unterminatedArray, []⟩
      | c :: rest =>
        if c = ',' then
          let (items, text) ← readItems bound rest
          return (item :: items, text)
        else if c = ')' then return ([item], rest)
        else .error ⟨.expectedSeparator c, c :: rest⟩

/-- Reads the entries of a dictionary through its closing brace and adds them to `read`. -/
def readEntries : Nat → Dict Value → List Char → Except Failure (Dict Value × List Char)
  | 0, _, text => .error ⟨.missingValue, text⟩
  | bound + 1, read, text => do
    let text ← skipTrivia text
    if text.head? = some '}' then
      return (read, text.tail)
    else
      let (key, text) ← readString text
      let text ← expect '=' (← skipTrivia text)
      let (value, text) ← readValue bound (← skipTrivia text)
      let text ← expect ';' (← skipTrivia text)
      readEntries bound (Dict.insert read key value) text

end

/-- Reads a whole text: one value, with nothing but white space and comments around it. -/
def readDocument (text : List Char) : Except Failure Value := do
  let text ← skipTrivia text
  let (value, text) ← readValue (2 * text.length + 1) text
  let text ← skipTrivia text
  if text.isEmpty then return value
  else .error ⟨.trailingContent, text⟩

/-- The text without a byte order mark at its front. -/
def dropByteOrderMark : List Char → List Char
  | [] => []
  | c :: rest => if c = '\ufeff' then rest else c :: rest

/-- The place in `text` where a failure with `rest` left happened. -/
def Position.before (text rest : List Char) : Position :=
  Position.after (text.take (text.length - rest.length))

/-- The property list that a text denotes. -/
def parse (text : String) : Except ParseError Value :=
  let text := dropByteOrderMark text.toList
  match readDocument text with
  | .ok value => .ok value
  | .error failure => .error ⟨Position.before text failure.rest, failure.fault⟩

end XcodeProject.PropertyList
