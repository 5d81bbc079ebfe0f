import XcodeProject.Text.ExtendingMark
import XcodeProject.Text.Unprintable

/-!
# Texts

Three things that are done with texts everywhere: cutting one at the last occurrence of a character,
which is how a name and its extension part; telling white space, which is what has the Unicode
property `White_Space`; and showing a text that may hold anything, between quotes and with nothing
hidden.
-/

namespace XcodeProject.Text

/-! ## Cutting -/

/-- What stands before the last occurrence of a character and what stands after it. -/
def splitAtLast (c : Char) (text : List Char) : Option (List Char × List Char) :=
  let reversed := text.reverse
  match reversed.dropWhile (· ≠ c) with
  | [] => none
  | _ :: before => some (before.reverse, (reversed.takeWhile (· ≠ c)).reverse)

/-! ## White space -/

/-- The 25 code points with the property `White_Space`, as closed ranges in increasing order.  A
byte order mark and a zero-width space do not have it. -/
def whiteSpaceRanges : List (Nat × Nat) :=
  [(0x9, 0xd), (0x20, 0x20), (0x85, 0x85), (0xa0, 0xa0), (0x1680, 0x1680), (0x2000, 0x200a),
    (0x2028, 0x2029), (0x202f, 0x202f), (0x205f, 0x205f), (0x3000, 0x3000)]

/-- The character has the property `White_Space`. -/
def isWhiteSpace (c : Char) : Bool :=
  whiteSpaceRanges.any fun (first, last) => first ≤ c.toNat && c.toNat ≤ last

/-! ## Quotes

Escapes stand for quotes, backslashes and the common controls, and the code point in braces for
every other character that would not be seen on its own. -/

/-- A character by its code point in lower-case hexadecimal. -/
def codePointEscape (c : Char) : List Char :=
  ['\\', 'u', '{'] ++ Nat.toDigits 16 c.toNat ++ ['}']

/-- A character between the quotes. -/
def showChar (c : Char) : List Char :=
  if c = '\x00' then ['\\', '0']
  else if c = '\t' then ['\\', 't']
  else if c = '\r' then ['\\', 'r']
  else if c = '\n' then ['\\', 'n']
  else if c = '\\' then ['\\', '\\']
  else if c = '"' then ['\\', '"']
  else if isExtendingMark c || isUnprintable c then codePointEscape c
  else [c]

/-- A text in quotes. -/
def quoted (text : String) : String :=
  String.ofList ('"' :: text.toList.flatMap showChar ++ ['"'])

end XcodeProject.Text
