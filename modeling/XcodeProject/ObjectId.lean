import XcodeProject.Hash.Blake3
import XcodeProject.Object

/-!
# Ids of new objects

The id of a new object is the beginning of a hash of its seed, which says what the object is and
where it goes, and of the number of the attempt, which is zero unless ids are taken.  The same edit
of the same project therefore gives the same id.

`seedBytes` writes the length of each part before the part, so that different seeds are different
bytes.  `search` makes one attempt after the other until an id is not taken.  It has no result if
the counter of attempts runs out before that.
-/

namespace XcodeProject.ObjectId

/-- A number in so many bytes, the lowest byte first. -/
def littleEndian : Nat → Nat → List UInt8
  | 0, _ => []
  | count + 1, n => n.toUInt8 :: littleEndian count (n / 256)

/-- A part of a seed: its length in eight bytes and its bytes. -/
def partBytes (part : String) : List UInt8 :=
  littleEndian 8 part.utf8ByteSize ++ part.toUTF8.data.toList

/-- The bytes that are hashed for a seed and an attempt. -/
def seedBytes (seed : List String) (attempt : UInt32) : List UInt8 :=
  seed.flatMap partBytes ++ littleEndian 4 attempt.toNat

/-- A hexadecimal digit in upper case. -/
def hexDigit (n : Nat) : Char :=
  (Nat.digitChar n).toUpper

/-- A byte as two hexadecimal digits. -/
def hexByte (byte : UInt8) : List Char :=
  [hexDigit (byte.toNat / 16), hexDigit (byte.toNat % 16)]

/-- How many bytes of the hash an id shows. -/
def size : Nat := 12

/-- The id that a seed has at an attempt. -/
def derive (seed : List String) (attempt : UInt32) : ObjectId :=
  String.ofList (((Blake3.digest (seedBytes seed attempt)).take size).flatMap hexByte)

/-- The first of `count` attempts, from `attempt` on, whose id is not taken. -/
def firstFree (taken : ObjectId → Bool) (seed : List String) : Nat → UInt32 → Option ObjectId
  | 0, _ => none
  | count + 1, attempt =>
    let id := derive seed attempt
    if taken id then firstFree taken seed count (attempt + 1) else some id

/-- The search for an id for a new object of the table, over all values of the counter; there is
none if the ids of all attempts are taken. -/
def search (table : ObjectTable) (seed : List String) : Option ObjectId :=
  firstFree (Dict.contains table) seed UInt32.size 0

/-- The id of a new object of the table.  It is the one that the search ends at; only for a table
whose keys are the ids of all attempts is it something else, a key longer than those of the table.
-/
def fresh (table : ObjectTable) (seed : List String) : ObjectId :=
  (search table seed).getD (Dict.unusedKey table)

theorem not_taken_of_firstFree {taken : ObjectId → Bool} {seed : List String} {count : Nat}
    {attempt : UInt32} {id : ObjectId} (h : firstFree taken seed count attempt = some id) :
    taken id = false := by
  induction count generalizing attempt with
  | zero => simp [firstFree] at h
  | succ count ih =>
    simp only [firstFree] at h
    split at h
    · exact ih h
    · next free =>
      cases h
      simpa using free

/-- The id of a new object is not in the table. -/
theorem contains_fresh (table : ObjectTable) (seed : List String) :
    Dict.contains table (fresh table seed) = false := by
  unfold fresh
  cases h : search table seed with
  | none => exact Dict.contains_unusedKey table
  | some id => exact not_taken_of_firstFree h

end XcodeProject.ObjectId
