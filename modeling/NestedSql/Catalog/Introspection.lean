import NestedSql.Catalog.Listing
import NestedSql.Catalog.TypeName
import NestedSql.Schema.Basic
import NestedSql.Sql.Name
import NestedSql.Text.Blank

/-!
# Schemas from catalogs

Every table of a listing becomes a collection under its own name, or under the name with its schema
in front when the name is taken. Consecutive lines with one storage text are one table, and the
first column whose type has no field type is the answer.
-/

namespace NestedSql.Catalog

/-- The first column without a field type. -/
structure UnsupportedType where
  table : String
  column : String
  type : String
deriving DecidableEq, Repr

def UnsupportedType.message (error : UnsupportedType) : String :=
  s!"Unsupported type '{error.type}' for column '{error.column}' of table '{error.table}'"

/-- The storage text of the table. -/
def ColumnRow.storage (row : ColumnRow) : String :=
  row.catalog ++ "." ++ row.schema ++ "." ++ row.table

/-- A comment that says something. -/
def description (comment : Option String) : Option String :=
  comment.filter fun text => !Text.isBlank text

/-- The declaration of the column. -/
def ColumnRow.field (row : ColumnRow) : Except UnsupportedType RowField :=
  match fieldType? row.type with
  | none => throw ⟨row.storage, row.column, row.type⟩
  | some type =>
    return ⟨if row.nullable then .nullable type else type, description row.columnComment⟩

/-- A table as it is registered. -/
structure StoredTable where
  storage : String
  name : String
  type : RowType
deriving DecidableEq, Repr

/-- The table of consecutive lines with one storage text. -/
def StoredTable.ofLines? : List (ColumnRow × RowField) → Option StoredTable
  | [] => none
  | (row, field) :: lines =>
    let columns := ((row, field) :: lines).map fun line => (line.1.column, line.2)
    some ⟨row.storage, row.table, ⟨Entries.ofPairs columns, description row.tableComment⟩⟩

/-- The tables of a listing with its declarations. -/
def storedTables (lines : List (ColumnRow × RowField)) : List StoredTable :=
  (lines.splitBy fun first second => first.1.storage == second.1.storage).filterMap
    StoredTable.ofLines?

/-- The second part of a storage text, which is the schema unless the catalog has a dot. -/
def schemaPart (storage : String) : String := ((Sql.parts storage)[1]?).getD ""

/-- The name under which a table is registered. -/
def collectionName (schema : Schema) (table : StoredTable) : String :=
  if (schema.rowType? table.name).isSome then schemaPart table.storage ++ "_" ++ table.name
  else table.name

/-- Registers a table. -/
def registerTable (schema : Schema) (table : StoredTable) : Schema :=
  schema.register (collectionName schema table) table.storage table.type

/-- The schema of a listing. -/
def introspect (rows : List ColumnRow) : Except UnsupportedType Schema := do
  let lines ← rows.mapM fun row => do return (row, ← row.field)
  return (storedTables lines).foldl registerTable .empty

end NestedSql.Catalog
