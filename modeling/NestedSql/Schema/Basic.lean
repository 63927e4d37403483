import NestedSql.Entries
import NestedSql.Schema.FieldType

/-!
# Schemas

A schema lists collections and gives each its storage text and the type of its rows. Registering
a collection keeps the three lists in step: a new name goes to the end of each, a known one is
replaced in place.
-/

namespace NestedSql

/-- A column of a row type. -/
structure RowField where
  type : FieldType
  description : Option String
deriving DecidableEq, Repr

/-- The columns of a collection in order. -/
structure RowType where
  fields : Entries RowField
  description : Option String
deriving DecidableEq, Repr

/-- The declaration of a column. -/
def RowType.field? (type : RowType) (column : String) : Option RowField :=
  Entries.get? column type.fields

/-- Collection names, the dotted storage text of each, and the type of its rows. -/
structure Schema where
  collections : List String
  storage : Entries String
  rowTypes : Entries RowType
deriving DecidableEq, Repr

namespace Schema

/-- The schema without collections. -/
def empty : Schema := ⟨[], [], []⟩

instance : Inhabited Schema := ⟨empty⟩

/-- The storage text of a collection. -/
def storage? (schema : Schema) (collection : String) : Option String :=
  Entries.get? collection schema.storage

/-- The row type of a collection. -/
def rowType? (schema : Schema) (collection : String) : Option RowType :=
  Entries.get? collection schema.rowTypes

/-- Registers a collection or replaces it in place. -/
def register (schema : Schema) (collection storage : String) (type : RowType) : Schema where
  collections :=
    if collection ∈ schema.collections then schema.collections
    else schema.collections ++ [collection]
  storage := Entries.put collection storage schema.storage
  rowTypes := Entries.put collection type schema.rowTypes

/-- Registers a collection by its columns; one named twice keeps its place and its last type. -/
def registerColumns (schema : Schema) (collection storage : String)
    (columns : List (String × FieldType)) : Schema :=
  schema.register collection storage
    ⟨Entries.ofPairs (columns.map fun column => (column.1, ⟨column.2, none⟩)), none⟩

@[simp] theorem storage?_register (schema : Schema) (collection storage : String)
    (type : RowType) :
    (schema.register collection storage type).storage? collection = some storage :=
  Entries.get?_put_self ..

@[simp] theorem rowType?_register (schema : Schema) (collection storage : String)
    (type : RowType) : (schema.register collection storage type).rowType? collection = some type :=
  Entries.get?_put_self ..

theorem storage?_register_of_ne {other collection : String} (h : other ≠ collection)
    (schema : Schema) (storage : String) (type : RowType) :
    (schema.register collection storage type).storage? other = schema.storage? other :=
  Entries.get?_put_of_ne h ..

theorem rowType?_register_of_ne {other collection : String} (h : other ≠ collection)
    (schema : Schema) (storage : String) (type : RowType) :
    (schema.register collection storage type).rowType? other = schema.rowType? other :=
  Entries.get?_put_of_ne h ..

end Schema

end NestedSql
