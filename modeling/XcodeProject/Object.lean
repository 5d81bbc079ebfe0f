import XcodeProject.Kind
import XcodeProject.PropertyList.Value

/-!
# Objects and the object table

A project is a table of objects under ids.  An object is a dictionary; a field of the wrong shape
counts as absent, and so does an entry of the table that is not a dictionary.
-/

namespace XcodeProject

open PropertyList (Value)

/-- The key of an object in the table.  Any string can be one: ids that were read are kept as they
are. -/
abbrev ObjectId := String

/-- The fields of an object. -/
abbrev Object := Dict Value

/-- The objects of a project under their ids. -/
abbrev ObjectTable := Dict Value

namespace Object

/-- A field that is a string. -/
def text? (object : Object) (key : String) : Option String :=
  (object.lookup key).bind Value.string?

/-- The kind of an object; one without a kind counts as being of the empty kind. -/
def kind (object : Object) : String :=
  (text? object "isa").getD ""

/-- The strings in an array field, in order. -/
def ids (object : Object) (key : String) : List ObjectId :=
  (((object.lookup key).bind Value.array?).getD []).filterMap Value.string?

end Object

namespace ObjectTable

/-- The object under an id. -/
def object? (table : ObjectTable) (id : ObjectId) : Option Object :=
  (table.lookup id).bind Value.dictionary?

/-- The kind of the object under an id. -/
def kind? (table : ObjectTable) (id : ObjectId) : Option String :=
  (object? table id).bind (Object.text? · "isa")

/-- A string field of the object under an id. -/
def text? (table : ObjectTable) (id : ObjectId) (key : String) : Option String :=
  (object? table id).bind (Object.text? · key)

/-- The ids in an array field of the object under an id. -/
def ids (table : ObjectTable) (id : ObjectId) (key : String) : List ObjectId :=
  ((object? table id).map (Object.ids · key)).getD []

/-- An object is an entry of the table that is a dictionary. -/
theorem object?_eq_some {table : ObjectTable} {id : ObjectId} {object : Object} :
    table.object? id = some object ↔ table.lookup id = some (.dictionary object) := by
  unfold object?
  cases table.lookup id with
  | none => simp
  | some value => cases value <;> simp [Value.dictionary?]

end ObjectTable

end XcodeProject
