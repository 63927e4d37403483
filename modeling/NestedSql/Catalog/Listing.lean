import NestedSql.Entries

/-!
# Listings of catalogs

The tables and views of a database and the listing of their columns: by catalog, schema and table,
each by the bytes of its name, and within a table by position. The engine's own tables are not
listed.
-/

namespace NestedSql.Catalog

/-- A stored column. -/
structure Column where
  name : String
  type : String
  notNull : Bool
  comment : Option String
deriving DecidableEq, Repr

/-- A table or a view. -/
structure Table where
  catalog : String
  schema : String
  name : String
  columns : List Column
  comment : Option String
  isView : Bool
deriving DecidableEq, Repr

/-- A line of the listing. -/
structure ColumnRow where
  catalog : String
  schema : String
  table : String
  column : String
  type : String
  nullable : Bool
  columnComment : Option String
  tableComment : Option String
deriving DecidableEq, Repr

/-- The lines of a table. The columns of a view may all be null. -/
def Table.rows (table : Table) : List ColumnRow :=
  table.columns.map fun column =>
    ⟨table.catalog, table.schema, table.name, column.name, column.type,
      table.isView || !column.notNull, column.comment, table.comment⟩

/-- The table is not one of the engine's own. -/
def Table.isListed (table : Table) : Bool :=
  !(["system", "temp"].contains table.catalog) &&
    !(["information_schema", "pg_catalog"].contains table.schema)

/-- The order of the listing. Strings are compared by code points, which is the order of bytes. -/
def Table.before (first second : Table) : Bool :=
  if first.catalog ≠ second.catalog then first.catalog < second.catalog
  else if first.schema ≠ second.schema then first.schema < second.schema
  else first.name ≤ second.name

/-- The listing of all columns. -/
def listing (tables : List Table) : List ColumnRow :=
  ((tables.filter Table.isListed).mergeSort Table.before).flatMap Table.rows

/-! ## Locations of databases -/

/-- The characters up to the first `stop`. -/
def upTo (stop : Char) (text : List Char) : List Char := text.takeWhile (· ≠ stop)

/-- The directory of a path and the name of its file. -/
def splitPath (path : String) : Option String × String :=
  let reversed := path.toList.reverse
  let file := String.ofList (upTo '/' reversed).reverse
  match reversed.dropWhile (· ≠ '/') with
  | [] => (none, file)
  | _ :: directory => (some (String.ofList directory.reverse), file)

/-- A database is kept in memory or in a file. -/
inductive Location where
  | memory
  | file (path : String)
deriving DecidableEq, Repr

namespace Location

/-- The location that a url names. -/
def ofUrl (url : String) : Location :=
  if url = "" ∨ url = ":memory:" then memory else file url

/-- The directory that has to exist, if the location names one. -/
def directory? : Location → Option String
  | memory => none
  | file path => (splitPath path).1

/-- The catalog that tables belong to unless they name another. -/
def catalog : Location → String
  | memory => "memory"
  | file path => String.ofList (upTo '.' (splitPath path).2.toList)

end Location

end NestedSql.Catalog
