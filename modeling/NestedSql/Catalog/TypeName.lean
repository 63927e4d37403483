import NestedSql.Schema.FieldType

/-!
# Names of stored types

The catalog names the type of a column: a base name, and a pair of brackets for every list around
it. Types without a scalar have no field type.
-/

namespace NestedSql.Catalog

/-- The scalars of base names. -/
def baseNames : List (String × ScalarType) :=
  [("BIGINT", .wide .bigInt), ("UBIGINT", .wide .uBigInt), ("HUGEINT", .wide .hugeInt),
    ("UHUGEINT", .wide .uHugeInt), ("TINYINT", .int), ("SMALLINT", .int), ("INTEGER", .int),
    ("UTINYINT", .int), ("USMALLINT", .int), ("UINTEGER", .int), ("REAL", .float),
    ("FLOAT", .float), ("DOUBLE", .float), ("BOOLEAN", .boolean), ("TIMESTAMP", .timestamp),
    ("TIMESTAMP_S", .timestamp), ("TIMESTAMP_MS", .timestamp), ("TIMESTAMP_NS", .timestamp),
    ("TIMESTAMP WITH TIME ZONE", .timestampTz), ("JSON", .json), ("VARCHAR", .string),
    ("DATE", .string), ("TIME", .string), ("INTERVAL", .string), ("UUID", .string),
    ("BLOB", .string), ("BIT", .string)]

/-- The start of decimal types, whatever width and scale follow. -/
def decimalName : String := "DECIMAL"

/-- The scalar of a base name. -/
def baseScalar? (name : List Char) : Option ScalarType :=
  match baseNames.lookup (String.ofList name) with
  | some scalar => some scalar
  | none => if decimalName.toList.isPrefixOf name then some .float else none

/-- The field type of a name whose characters come last first. -/
def ofReversed? : List Char → Option FieldType
  | ']' :: '[' :: element => (ofReversed? element).map .array
  | base => (baseScalar? base.reverse).map fun scalar => .named scalar.name

/-- The field type of a stored type. -/
def fieldType? (name : String) : Option FieldType := ofReversed? name.toList.reverse

end NestedSql.Catalog
