/-!
# Why a request has no plan

A request fails to compile because it asks for a feature that is not supported, or because it does
not fit the schema, its relationships or its variables. Each cause is a constructor; the wording is
`CompileError.detail`.
-/

namespace NestedSql

/-- The first reason against a plan. -/
inductive CompileError where
  | unknownOperator (name : String)
  | columnThroughPath (name : String)
  | rootColumn (name : String)
  | comparisonWithColumn
  | unrelatedExists (collection : String)
  | unknownFunction (name : String)
  | unknownScalar (name : String)
  | groupPredicate
  | groupOrder
  | nothingRequested
  | orderByAggregate
  | dimensionThroughPath (name : String)
  | relationshipNotFound (name : String)
  | storageNotFound (collection : String)
  | collectionNotFound (name : String)
  | columnNotFound (column collection : String)
  | variableNotBound (name : String)
deriving DecidableEq, Repr

namespace CompileError

/-- The two kinds of reasons. -/
inductive Kind where
  | unsupported
  | configuration
deriving DecidableEq, Repr

def kind : CompileError → Kind
  | relationshipNotFound _ | storageNotFound _ | collectionNotFound _ | columnNotFound _ _
  | variableNotBound _ => .configuration
  | _ => .unsupported

/-- What is missing. -/
def detail : CompileError → String
  | unknownOperator name => s!"binary comparison operator '{name}'"
  | columnThroughPath name => s!"comparison on column '{name}' through a relationship path"
  | rootColumn name => s!"comparison on root collection column '{name}'"
  | comparisonWithColumn => "comparison against another column"
  | unrelatedExists collection => s!"exists over unrelated collection '{collection}'"
  | unknownFunction name => s!"aggregate function '{name}'"
  | unknownScalar name => s!"scalar type '{name}'"
  | groupPredicate => "predicate on groups"
  | groupOrder => "order_by on groups"
  | nothingRequested => "query must request fields, aggregates or groups"
  | orderByAggregate => "ordering by an aggregate"
  | dimensionThroughPath name => s!"group dimension '{name}' through a relationship path"
  | relationshipNotFound name => s!"relationship '{name}' not found"
  | storageNotFound collection => s!"collection '{collection}' has no storage alias"
  | collectionNotFound name => s!"collection '{name}' not found in schema"
  | columnNotFound column collection =>
    s!"column '{column}' not found in collection '{collection}'"
  | variableNotBound name => s!"variable '{name}' is not bound"

/-- The reason with its kind in front. -/
def message (error : CompileError) : String :=
  match error.kind with
  | .unsupported => "Unsupported feature: " ++ error.detail
  | .configuration => "Configuration error: " ++ error.detail

end CompileError

end NestedSql
