import NestedSql.Json.Basic

/-!
# Filters

A filter is a tree of junctions, negations, comparisons and existence tests over the columns of
the collection in scope. Columns can be reached through a path of relationships, each hop with a
filter of its own.
-/

namespace NestedSql

/-- A test that needs no value. -/
inductive UnaryOperator where
  | isNull
deriving DecidableEq, Repr

/-- The collection whose rows an existence test looks at. -/
inductive ExistsSource where
  | related (relationship : String)
  | unrelated (collection : String)
deriving DecidableEq, Repr

mutual

/-- A filter. Operators are kept by name: not every name is supported. -/
inductive Expression where
  | and (parts : List Expression)
  | or (parts : List Expression)
  | not (part : Expression)
  | unary (column : ComparisonTarget) (operator : UnaryOperator)
  | binary (column : ComparisonTarget) (operator : String) (value : ComparisonValue)
  | existsIn (source : ExistsSource) (predicate : Option Expression)

/-- The column that a comparison looks at. -/
inductive ComparisonTarget where
  | column (name : String) (path : List PathElement)
  | rootColumn (name : String)

/-- What a column is compared with. -/
inductive ComparisonValue where
  | scalar (value : Json)
  | variable (name : String)
  | column (target : ComparisonTarget)

/-- One hop along a relationship. -/
structure PathElement where
  relationship : String
  predicate : Option Expression

end

instance : Inhabited Expression := ⟨.and []⟩

end NestedSql
