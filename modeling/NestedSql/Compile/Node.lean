import NestedSql.Compile.Ordering

/-!
# Query nodes to selects

A node becomes up to three selects, for rows, aggregates and groups. Relationship fields become
selects nested in the object of their parent row, so that one statement answers a whole tree. A
node checks its grouping, that it asks for anything, its storage, its filter, its order, and then
its rows, aggregates and groups, in this order.
-/

namespace NestedSql.Compile

open Sql (Condition Expr Join Page Select SortKey Source Summary Table)

/-- The selects of a node. -/
structure Node where
  rows : Option Select
  aggregates : Option Select
  groups : Option Select

/-- The relationship that leads to a node, and the alias it starts from. -/
structure Parent where
  relationship : Relationship
  tableAlias : String

/-- The empty array. -/
def emptyArray : Expr := .array []

/-- The array of a document over all rows, empty when there are none. -/
def arrayOf (item : Expr) (order : List SortKey) : Expr :=
  .coalesce (.collect item order) emptyArray

/-- The name of the `i`-th sort key inside. -/
def sortName (i : Nat) : String := s!"o{i}"

/-- The name of the `i`-th dimension inside. -/
def dimensionName (i : Nat) : String := s!"d{i}"

/-- The name of the `i`-th aggregate inside. -/
def aggregateName (i : Nat) : String := s!"a{i}"

/-! ## Checks -/

/-- Groups are neither filtered nor ordered by the request. -/
def checkGrouping (grouping : Grouping) : Except CompileError Unit := do
  if grouping.predicate.isSome then throw .groupPredicate
  if grouping.orderBy.isSome then throw .groupOrder

/-- The grouping is supported and anything is asked for. -/
def checkRequested (hasFields hasAggregates : Bool) (groups : Option Grouping) :
    Except CompileError Unit := do
  if let some grouping := groups then checkGrouping grouping
  if !hasFields && !hasAggregates && groups.isNone then throw .nothingRequested

/-! ## Filters and aggregates -/

/-- The join with the parent, and the filter. -/
def nodeConditions (context : Context) (scope : Scope) (parent : Option Parent)
    (filter : Option Expression) : Except CompileError (List Condition) := do
  let joined := match parent with
    | some parent => joinConditions parent.relationship parent.tableAlias scope.tableAlias
    | none => []
  match filter with
  | none => return joined
  | some filter => return joined ++ [.group (← predicate context scope filter)]

/-- An aggregate over columns of an alias. -/
def summary (tableAlias : String) : Aggregate → Except CompileError Summary
  | .starCount => return .rows
  | .columnCount column distinct => return .values ⟨tableAlias, column⟩ distinct
  | .singleColumn column name =>
    match AggregateFunction.ofName? name with
    | some function => return .function function ⟨tableAlias, column⟩
    | none => throw (.unknownFunction name)

/-- Output names and their aggregates in order. -/
def summaries (aggregates : Entries Aggregate) (tableAlias : String) :
    Except CompileError (List (String × Summary)) :=
  aggregates.mapM fun entry => do return (entry.1, ← summary tableAlias entry.2)

/-! ## Selects -/

/-- Where the rows of a node come from. -/
structure Rows where
  table : Table
  conditions : List Condition
  ordering : Ordering
  page : Page

/-- Sort keys over the outputs that repeat the sorted columns. -/
def outerKeys (keys : List SortKey) : List SortKey :=
  keys.mapIdx fun i key => { key with column := .output (sortName i) }

/-- The column of a sort key as an output. -/
def sortOutput (i : Nat) (key : SortKey) : Expr × Option String :=
  match key.column with
  | .column ref => (.projected .plainColumn ref, some (sortName i))
  | .output name => (.output name, some (sortName i))

/-- The rows of a node as one document, sorted again where they are collected. -/
def rowsSelect (rows : Rows) (row : Expr) : Select :=
  let inner : Select :=
    ⟨(row, some "r") :: rows.ordering.keys.mapIdx sortOutput,
      .tables rows.table rows.ordering.joins, rows.conditions, [], rows.ordering.keys, rows.page⟩
  .single (.object [("rows", arrayOf (.output "r") (outerKeys rows.ordering.keys))])
    (.derived inner "rows")

/-- The alias under which aggregates read the rows of a node. -/
def subqueryAlias : String := "subq"

/-- The aggregates of a node over its page of rows. -/
def aggregatesSelect (rows : Rows) (outputs : List (String × Summary)) : Select :=
  if outputs.isEmpty then .single (.object []) .nothing
  else
    let inner : Select :=
      ⟨[(.allOf rows.table.tableAlias, none)], .tables rows.table rows.ordering.joins,
        rows.conditions, [], rows.ordering.keys, rows.page⟩
    .single (.object (outputs.map fun output => (output.1, .summary output.2)))
      (.derived inner subqueryAlias)

/-- A dimension of the collection in scope. -/
def dimension (context : Context) (scope : Scope) : Dimension → Except CompileError Expr
  | .column name [] => do
    let type ← context.fieldType scope.collection name
    return .projected (← classify type .projection) (scope.column name)
  | .column name _ => throw (.dimensionThroughPath name)

/-- The groups of a node as one document, ordered by their dimensions. -/
def groupsSelect (table : Table) (conditions : List Condition) (page : Page)
    (dimensions : List Expr) (outputs : List (String × Summary)) : Select :=
  let named := dimensions.mapIdx (fun i value => (value, some (dimensionName i))) ++
    outputs.mapIdx (fun i output => (.summary output.2, some (aggregateName i)))
  let order : List SortKey :=
    dimensions.mapIdx fun i _ => ⟨.output (dimensionName i), .plainColumn, none⟩
  let inner : Select :=
    ⟨if named.isEmpty then [(.summary .rows, some "n")] else named, .tables table [], conditions,
      dimensions, order, page⟩
  let group : Expr := .object
    [("dimensions", .array (dimensions.mapIdx fun i _ => .output (dimensionName i))),
      ("aggregates",
        .object (outputs.mapIdx fun i output => (output.1, .output (aggregateName i))))]
  .single (arrayOf group order) (.derived inner "groups")

/-- The groups of a node. -/
def groups (context : Context) (scope : Scope) (table : Table) (conditions : List Condition)
    (grouping : Grouping) : Except CompileError Select := do
  let dimensions ← grouping.dimensions.mapM (dimension context scope)
  let outputs ← summaries grouping.aggregates scope.tableAlias
  return groupsSelect table conditions ⟨grouping.limit, grouping.offset⟩ dimensions outputs

/-- A child node inside a row: its rows alone, or an object of what it asks for. -/
def childExpr (child : Node) : Expr :=
  let document : Expr := match child with
    | ⟨some rows, none, none⟩ => .subquery rows
    | ⟨rows, aggregates, groups⟩ =>
      let members := [rows.map fun select => ("rows", Expr.rowsOf (.subquery select)),
        aggregates.map fun select => ("aggregates", .subquery select),
        groups.map fun select => ("groups", .subquery select)]
      .subquery (.single (.object (members.filterMap id)) .nothing)
  .coalesce document emptyArray

/-- The column of an output field. -/
def columnExpr (context : Context) (scope : Scope) (name : String) : Except CompileError Expr := do
  let type ← context.fieldType scope.collection name
  return .projected (← classify type .projection) (scope.column name)

/-! ## Nodes -/

mutual

/-- The selects of a query over a collection. -/
def node (context : Context) (collection : String) (path : AliasPath) (parent : Option Parent) :
    Query → Except CompileError Node
  | ⟨fields, aggregates, limit, offset, orderBy, filter, groups?⟩ => do
    checkRequested fields.isSome aggregates.isSome groups?
    let scope : Scope := ⟨collection, path.tableAlias⟩
    let table : Table := ⟨← context.storage collection, scope.tableAlias⟩
    let conditions ← nodeConditions context scope parent filter
    let ordering ← ordering context scope orderBy
    let rows : Rows := ⟨table, conditions, ordering, ⟨limit, offset⟩⟩
    let rowsPart ← rowObject context scope path fields
    let aggregatesPart ← aggregates.mapM fun entries => do
      return aggregatesSelect rows (← summaries entries subqueryAlias)
    let groupsPart ← groups?.mapM (groups context scope table conditions)
    return ⟨rowsPart.map (rowsSelect rows), aggregatesPart, groupsPart⟩

/-- The object of an output row. -/
def rowObject (context : Context) (scope : Scope) (path : AliasPath) :
    Option (List (String × Field)) → Except CompileError (Option Expr)
  | none => return none
  | some fields => do return some (.object (← fieldMembers context scope path fields))

/-- The members of an output row. -/
def fieldMembers (context : Context) (scope : Scope) (path : AliasPath) :
    List (String × Field) → Except CompileError (List (String × Expr))
  | [] => return []
  | (name, field) :: fields => do
    let value ← fieldExpr context scope path field
    return (name, value) :: (← fieldMembers context scope path fields)

/-- The value of an output field. -/
def fieldExpr (context : Context) (scope : Scope) (path : AliasPath) :
    Field → Except CompileError Expr
  | .column name => columnExpr context scope name
  | .relationship name query => do
    let relationship ← context.relationship name
    let target := relationship.target
    return childExpr (← node context target (path.child target)
      (some ⟨relationship, scope.tableAlias⟩) query)

end

/-- The selects of a root query. -/
def root (context : Context) (collection : String) (query : Query) : Except CompileError Node :=
  node context collection (AliasPath.root.child collection) none query

end NestedSql.Compile
