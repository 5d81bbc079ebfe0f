import XcodeProject.Dict

/-!
# Property-list values

A property list is a string, an array of property lists, or a dictionary from strings to property
lists.  There are no numbers and no dates: a number is the string of its digits.

`Value.Canonical` says that every dictionary inside a value is sorted.  The reader builds canonical
values only, and a canonical value is determined by what it holds.
-/

namespace XcodeProject.PropertyList

/-- A property list. -/
inductive Value where
  /-- A text. -/
  | string (text : String)
  /-- Items in order. -/
  | array (items : List Value)
  /-- Entries sorted by key. -/
  | dictionary (entries : List (String × Value))
deriving Repr, Inhabited

namespace Value

/-- The text of a string. -/
def string? : Value → Option String
  | .string text => some text
  | _ => none

/-- The items of an array. -/
def array? : Value → Option (List Value)
  | .array items => some items
  | _ => none

/-- The entries of a dictionary. -/
def dictionary? : Value → Option (Dict Value)
  | .dictionary entries => some entries
  | _ => none

/-! ## Canonical values -/

mutual

/-- Every dictionary inside the value is sorted by key. -/
def Canonical : Value → Prop
  | .string _ => True
  | .array items => CanonicalItems items
  | .dictionary entries => Dict.Sorted entries ∧ CanonicalEntries entries

/-- Every item is canonical. -/
def CanonicalItems : List Value → Prop
  | [] => True
  | item :: rest => Canonical item ∧ CanonicalItems rest

/-- Every value of the entries is canonical. -/
def CanonicalEntries : List (String × Value) → Prop
  | [] => True
  | (_, value) :: rest => Canonical value ∧ CanonicalEntries rest

end

/-! ## Equality -/

mutual

/-- Equality of values can be decided. -/
def decideEq : (a b : Value) → Decidable (a = b)
  | .string s, .string t =>
    if h : s = t then isTrue (by rw [h]) else isFalse (by simpa using h)
  | .array xs, .array ys =>
    match decideEqItems xs ys with
    | isTrue h => isTrue (by rw [h])
    | isFalse h => isFalse (by simpa using h)
  | .dictionary xs, .dictionary ys =>
    match decideEqEntries xs ys with
    | isTrue h => isTrue (by rw [h])
    | isFalse h => isFalse (by simpa using h)
  | .string _, .array _ => isFalse (by simp)
  | .string _, .dictionary _ => isFalse (by simp)
  | .array _, .string _ => isFalse (by simp)
  | .array _, .dictionary _ => isFalse (by simp)
  | .dictionary _, .string _ => isFalse (by simp)
  | .dictionary _, .array _ => isFalse (by simp)

/-- Equality of item lists can be decided. -/
def decideEqItems : (xs ys : List Value) → Decidable (xs = ys)
  | [], [] => isTrue rfl
  | [], _ :: _ => isFalse (by simp)
  | _ :: _, [] => isFalse (by simp)
  | x :: xs, y :: ys =>
    match decideEq x y, decideEqItems xs ys with
    | isTrue h, isTrue t => isTrue (by rw [h, t])
    | isFalse h, _ => isFalse (by simp [h])
    | _, isFalse t => isFalse (by simp [t])

/-- Equality of entry lists can be decided. -/
def decideEqEntries : (xs ys : List (String × Value)) → Decidable (xs = ys)
  | [], [] => isTrue rfl
  | [], _ :: _ => isFalse (by simp)
  | _ :: _, [] => isFalse (by simp)
  | (k, x) :: xs, (l, y) :: ys =>
    if hk : k = l then
      match decideEq x y, decideEqEntries xs ys with
      | isTrue h, isTrue t => isTrue (by rw [hk, h, t])
      | isFalse h, _ => isFalse (by simp [h])
      | _, isFalse t => isFalse (by simp [t])
    else isFalse (by simp [hk])

end

instance : DecidableEq Value := decideEq

end Value

end XcodeProject.PropertyList
