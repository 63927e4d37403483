/-!
# Quoted names

Identifiers stand between double quotes and string literals between single ones; a quote inside is
written twice. A storage text names a table by parts with dots between them.
-/

namespace NestedSql.Sql

/-- The characters with every quote written twice. -/
def doubled (quote : Char) : List Char → List Char
  | [] => []
  | c :: rest => if c = quote then c :: c :: doubled quote rest else c :: doubled quote rest

/-- The characters between quotes. -/
def enclosed (quote : Char) (characters : List Char) : List Char :=
  quote :: (doubled quote characters ++ [quote])

/-- An identifier. -/
def ident (name : String) : String := String.ofList (enclosed '"' name.toList)

/-- A string literal, as the keys of objects are written. -/
def key (name : String) : String := String.ofList (enclosed '\'' name.toList)

/-- The parts between dots: one more than there are dots. -/
def dotted : List Char → List (List Char)
  | [] => [[]]
  | c :: rest =>
    if c = '.' then [] :: dotted rest
    else match dotted rest with
      | [] => [[c]]
      | part :: parts => (c :: part) :: parts

/-- The parts of a storage text. -/
def parts (storage : String) : List String := (dotted storage.toList).map String.ofList

/-- A storage text with every part as an identifier. -/
def table (storage : String) : String := ".".intercalate ((parts storage).map ident)

/-- A column of an alias. -/
def qualified (tableAlias column : String) : String := ident tableAlias ++ "." ++ ident column

end NestedSql.Sql
