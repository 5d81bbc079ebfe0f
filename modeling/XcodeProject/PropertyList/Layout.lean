import XcodeProject.PropertyList.Quoting
import XcodeProject.PropertyList.Value

/-!
# Laying out a value in lines

An array or a dictionary takes a line for its opening bracket, the lines of its parts one tab deeper,
and a line for its closing bracket; a string takes part of one line.  `Value.lines` gives the lines
of a value together with what stands before it on its first line and after it on its last one, so the
lines of a whole are the lines of its parts between two more lines.

In a dictionary the entry for `isa`, the kind of an object, stands first; the others follow in key
order.  How a string is written is left open (`Spelling`), because inside a project a string that is
the id of an object is followed by a comment.
-/

namespace XcodeProject.PropertyList

/-- How a string is written, given the key of the entry that it is the value of. -/
abbrev Spelling := Option String → String → String

/-- The entry for `isa`, then the others, each in the order they had. -/
def isaFirst {α : Type} (entries : List (String × α)) : List (String × α) :=
  entries.filter (·.1 = "isa") ++ entries.filter (·.1 ≠ "isa")

/-- The indentation of a line. -/
def tabs (depth : Nat) : String :=
  String.ofList (List.replicate depth '\t')

namespace Value

mutual

/-- The lines of a value at `depth`, with `head` in front of the first and `tail` after the last. -/
def lines (spell : Spelling) (depth : Nat) (head tail : String) (key : Option String) :
    Value → List String
  | .string text => [head ++ spell key text ++ tail]
  | .array items =>
    (head ++ "(") :: itemLines spell (depth + 1) items ++ [tabs depth ++ ")" ++ tail]
  | .dictionary entries =>
    (head ++ "\x7b") :: (isaFirst (entryLines spell (depth + 1) entries)).flatMap Prod.snd
      ++ [tabs depth ++ "\x7d" ++ tail]

/-- The lines of the items of an array. -/
def itemLines (spell : Spelling) (depth : Nat) : List Value → List String
  | [] => []
  | item :: rest => lines spell depth (tabs depth) "," none item ++ itemLines spell depth rest

/-- The lines of each entry of a dictionary, under the key of the entry. -/
def entryLines (spell : Spelling) (depth : Nat) :
    List (String × Value) → List (String × List String)
  | [] => []
  | (key, value) :: rest =>
    (key, lines spell depth (tabs depth ++ quote key ++ " = ") ";" (some key) value)
      :: entryLines spell depth rest

end

mutual

/-- A value on one line. -/
def inline (spell : Spelling) (key : Option String) : Value → String
  | .string text => spell key text
  | .array items => "(" ++ inlineItems spell items ++ ")"
  | .dictionary entries =>
    "\x7b" ++ String.join ((isaFirst (inlineEntries spell entries)).map Prod.snd) ++ "\x7d"

/-- The items of an array on one line. -/
def inlineItems (spell : Spelling) : List Value → String
  | [] => ""
  | item :: rest => inline spell none item ++ ", " ++ inlineItems spell rest

/-- Each entry of a dictionary on one line, under the key of the entry. -/
def inlineEntries (spell : Spelling) : List (String × Value) → List (String × String)
  | [] => []
  | (key, value) :: rest =>
    (key, quote key ++ " = " ++ inline spell (some key) value ++ "; ")
      :: inlineEntries spell rest

end

/-- The text of a value that stands by itself. -/
def write (value : Value) : String :=
  "\n".intercalate (lines (fun _ => quote) 0 "" "" none value)

end Value

end XcodeProject.PropertyList
