/-!
# Quoting strings

A string is written as it is when reading it back needs no quotes and the notation has no use of its
own for its characters; otherwise it stands between double quotes with the characters that could not
stand there escaped.  The condition for the plain form is stricter than what the reader accepts: a
plus or minus sign, a double slash (a comment), and three underscores in a row call for quotes.
-/

namespace XcodeProject.PropertyList

/-- The characters of strings that are written without quotes. -/
def isPlainChar (c : Char) : Bool :=
  c.isAlphanum || c ∈ ['_', '$', '/', ':', '.']

/-- The list holds `pattern` as consecutive elements. -/
def hasRun (pattern : List Char) : List Char → Bool
  | [] => pattern.isEmpty
  | c :: rest => pattern.isPrefixOf (c :: rest) || hasRun pattern rest

/-- The string is written without quotes. -/
def isPlain (text : List Char) : Bool :=
  !text.isEmpty && text.all isPlainChar && !hasRun ['/', '/'] text && !hasRun ['_', '_', '_'] text

/-- The code point in hexadecimal, with at least four lower-case digits. -/
def hexCode (n : Nat) : List Char :=
  (Nat.toDigits 16 n).leftpad 4 '0'

/-- A character between double quotes. -/
def escapeChar (c : Char) : List Char :=
  if c = '"' then ['\\', '"']
  else if c = '\\' then ['\\', '\\']
  else if c = '\n' then ['\\', 'n']
  else if c = '\t' then ['\\', 't']
  else if c = '\r' then ['\\', 'r']
  else if c.toNat < 0x20 ∨ c.toNat = 0x7f then '\\' :: 'U' :: hexCode c.toNat
  else [c]

/-- The written form of a string. -/
def quote (text : String) : String :=
  if isPlain text.toList then text
  else String.ofList ('"' :: text.toList.flatMap escapeChar ++ ['"'])

end XcodeProject.PropertyList
