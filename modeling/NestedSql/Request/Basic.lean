import NestedSql.Request.Expression

/-!
# Requests

A request names a root collection and a query over it, the relationships that queries and filters
may follow, and the sets of variables to answer it for. Output fields and aggregates keep the order
in which they are written.
-/

namespace NestedSql

inductive RelationshipType where
  | object
  | array
deriving DecidableEq, Repr

/-- A join between two collections: pairs of source and target columns. -/
structure Relationship where
  columnMapping : Entries String
  type : RelationshipType
  target : String
deriving DecidableEq, Repr

inductive OrderDirection where
  | asc
  | desc
deriving DecidableEq, Repr

/-- What rows are sorted by. -/
inductive OrderByTarget where
  | column (name : String) (path : List PathElement)
  | singleColumnAggregate (column function : String) (path : List PathElement)
  | starCountAggregate (path : List PathElement)

structure OrderByElement where
  direction : OrderDirection
  target : OrderByTarget

/-- Sort keys, the first deciding first. -/
structure OrderBy where
  elements : List OrderByElement

/-- A requested aggregate. Functions are kept by name: not every name is supported. -/
inductive Aggregate where
  | starCount
  | columnCount (column : String) (distinct : Bool)
  | singleColumn (column function : String)
deriving DecidableEq, Repr

/-- A value that rows are grouped by. -/
inductive Dimension where
  | column (name : String) (path : List PathElement)

/-- Grouped aggregates. Filters and orders over groups are kept as written: none is supported. -/
structure Grouping where
  dimensions : List Dimension
  aggregates : Entries Aggregate
  predicate : Option Json
  orderBy : Option Json
  limit : Option UInt32
  offset : Option UInt32

mutual

/-- An output field. -/
inductive Field where
  | column (name : String)
  | relationship (name : String) (query : Query)

/-- One level of a nested query. -/
structure Query where
  fields : Option (List (String × Field))
  aggregates : Option (Entries Aggregate)
  limit : Option UInt32
  offset : Option UInt32
  orderBy : Option OrderBy
  predicate : Option Expression
  groups : Option Grouping

end

/-- Values for the variables of a request. -/
abbrev VariableSet := Entries Json

/-- A root query and what it refers to. -/
structure Request where
  collection : String
  query : Query
  relationships : Entries Relationship
  bindings : Option (List VariableSet)

end NestedSql
