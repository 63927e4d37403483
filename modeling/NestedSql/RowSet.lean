import NestedSql.Json.Basic

/-!
# Row sets

The answer to one query: rows, aggregates and groups, each there exactly if it was asked for.
-/

namespace NestedSql

/-- An output row. -/
abbrev Row := Entries Json

/-- The dimension values of a group and its aggregates. -/
structure Group where
  dimensions : List Json
  aggregates : Entries Json

/-- The answer to one query. -/
structure RowSet where
  rows : Option (List Row)
  aggregates : Option (Entries Json)
  groups : Option (List Group)

namespace RowSet

/-- Nothing was asked for. -/
def empty : RowSet := ⟨none, none, none⟩

end RowSet

/-- The document that a rows statement returns. -/
structure RowsDocument where
  rows : List Row

end NestedSql
