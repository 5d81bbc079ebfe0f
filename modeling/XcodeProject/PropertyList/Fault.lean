/-!
# Why a text is not a property list

A fault is the cause for which reading stopped; its wording stands in `Fault.message` alone.  A
`ParseError` adds the place: lines and columns count from one, a column counts code points, and only
a line feed ends a line.
-/

namespace XcodeProject.PropertyList

/-- The cause for which reading stopped. -/
inductive Fault where
  /-- A block comment has no end. -/
  | unterminatedComment
  /-- The text ends where a value should stand. -/
  | missingValue
  /-- The text ends where a string should stand. -/
  | missingString
  /-- A character that begins no string stands where a string should. -/
  | unexpectedCharacter (found : Char)
  /-- A certain character should stand here; `found` is what does, if anything. -/
  | expectedCharacter (wanted : Char) (found : Option Char)
  /-- After an item of an array neither a comma nor the end of the array follows. -/
  | expectedSeparator (found : Char)
  /-- The text ends after an item of an array. -/
  | unterminatedArray
  /-- The text ends inside a quoted string. -/
  | unterminatedString
  /-- The text ends after a backslash. -/
  | unterminatedEscape
  /-- Not four hexadecimal digits, or they name a surrogate. -/
  | invalidCodePoint
  /-- Something follows the value. -/
  | trailingContent
deriving DecidableEq, Repr

/-- The wording of a fault. -/
def Fault.message : Fault → String
  | .unterminatedComment => "Unterminated comment"
  | .missingValue => "Expected a value, found end of input"
  | .missingString => "Expected a string, found end of input"
  | .unexpectedCharacter found => "Unexpected character '" ++ found.toString ++ "'"
  | .expectedCharacter wanted (some found) =>
    "Expected '" ++ wanted.toString ++ "', found '" ++ found.toString ++ "'"
  | .expectedCharacter wanted none =>
    "Expected '" ++ wanted.toString ++ "', found end of input"
  | .expectedSeparator found => "Expected ',' or ')', found '" ++ found.toString ++ "'"
  | .unterminatedArray => "Unterminated array"
  | .unterminatedString => "Unterminated string"
  | .unterminatedEscape => "Unterminated escape sequence"
  | .invalidCodePoint => "Invalid \\U escape"
  | .trailingContent => "Unexpected trailing content"

/-- A place in a text. -/
structure Position where
  /-- Lines count from one. -/
  line : Nat
  /-- Columns count code points from one. -/
  column : Nat
deriving DecidableEq, Repr

/-- The place right after `consumed`, the front part of a text. -/
def Position.after (consumed : List Char) : Position where
  line := consumed.count '\n' + 1
  column := (consumed.reverse.takeWhile (· ≠ '\n')).length + 1

/-- A text is not a property list: where and why. -/
structure ParseError where
  /-- Where reading stopped. -/
  position : Position
  /-- Why it stopped. -/
  fault : Fault
deriving DecidableEq, Repr

/-- The wording of a parse error. -/
def ParseError.message (e : ParseError) : String :=
  "Parse error at line " ++ toString e.position.line ++ ", column " ++ toString e.position.column
    ++ ": " ++ e.fault.message

end XcodeProject.PropertyList
