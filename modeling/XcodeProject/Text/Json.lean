/-!
# JSON documents

The part of JSON that reports use, and its text with two spaces of indentation.  A list or an object
without parts takes no line of its own.
-/

namespace XcodeProject.Text

/-- A JSON document. -/
inductive Json where
  /-- A truth value. -/
  | bool (value : Bool)
  /-- A number. -/
  | number (value : Nat)
  /-- A text. -/
  | string (text : String)
  /-- A list. -/
  | list (items : List Json)
  /-- Fields in order. -/
  | object (fields : List (String × Json))
deriving Repr, Inhabited

namespace Json

/-- A hexadecimal digit in lower case. -/
def hexDigit (n : Nat) : Char :=
  Nat.digitChar n

/-- A character of a text. -/
def showChar (c : Char) : List Char :=
  if c = '"' then ['\\', '"']
  else if c = '\\' then ['\\', '\\']
  else if c = '\x08' then ['\\', 'b']
  else if c = '\x0c' then ['\\', 'f']
  else if c = '\n' then ['\\', 'n']
  else if c = '\r' then ['\\', 'r']
  else if c = '\t' then ['\\', 't']
  else if c.toNat < 0x20 then
    ['\\', 'u', '0', '0', hexDigit (c.toNat / 16), hexDigit (c.toNat % 16)]
  else [c]

/-- A text in quotes. -/
def showString (text : String) : String :=
  String.ofList ('"' :: text.toList.flatMap showChar ++ ['"'])

/-- A new line at a depth. -/
def newLine (depth : Nat) : String :=
  String.ofList ('\n' :: List.replicate (2 * depth) ' ')

/-- Parts between brackets, each on a line of its own. -/
def enclose (depth : Nat) (opening closing : String) (parts : List String) : String :=
  if parts.isEmpty then opening ++ closing
  else
    opening ++ ",".intercalate (parts.map (newLine (depth + 1) ++ ·)) ++ newLine depth ++ closing

mutual

/-- The text of a document at a depth. -/
def pretty (depth : Nat) : Json → String
  | .bool value => if value then "true" else "false"
  | .number value => toString value
  | .string text => showString text
  | .list items => enclose depth "[" "]" (prettyItems (depth + 1) items)
  | .object fields => enclose depth "\x7b" "\x7d" (prettyFields (depth + 1) fields)

/-- The texts of the items of a list. -/
def prettyItems (depth : Nat) : List Json → List String
  | [] => []
  | item :: rest => pretty depth item :: prettyItems depth rest

/-- The texts of the fields of an object. -/
def prettyFields (depth : Nat) : List (String × Json) → List String
  | [] => []
  | (key, value) :: rest =>
    (showString key ++ ": " ++ pretty depth value) :: prettyFields depth rest

end

/-- The text of a document, ended by a new line. -/
def text (document : Json) : String :=
  document.pretty 0 ++ "\n"

end Json

end XcodeProject.Text
