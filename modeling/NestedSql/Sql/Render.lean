import NestedSql.Sql.Tree

/-!
# The text of statement trees

One function per kind of tree, each giving text and values together. Everything that carries a
name goes through the quoting of names, and every value through a placeholder.
-/

namespace NestedSql.Sql

def ColumnRef.sql (ref : ColumnRef) : String := qualified ref.tableAlias ref.column

def Table.sql (table : Table) : String :=
  Sql.table table.storage ++ " AS " ++ ident table.tableAlias

def Connective.sql : Connective → String
  | and => " AND "
  | or => " OR "

mutual

/-- A condition. -/
def Condition.render : Condition → Statement
  | .one => .raw "1"
  | .tautology => .raw "1 = 1"
  | .equal left right => .raw (left.sql ++ " = " ++ right.sql)
  | .isNull column => .raw (column.sql ++ " IS NULL")
  | .compare column operator shape value =>
    .raw (column.sql ++ " " ++ operator.sql ++ " ") ++ shape.bind value
  | .junction connective parts => (Statement.joined connective.sql (renderAll parts)).parenthesized
  | .not part => .raw "NOT " ++ part.render.parenthesized
  | .group part => part.render.parenthesized
  | .existsIn table conditions =>
    .raw ("EXISTS (SELECT 1 FROM " ++ table.sql ++ " WHERE ") ++
      Statement.joined " AND " (renderAll conditions) ++ .raw ")"

/-- Conditions one by one. -/
def renderAll : List Condition → List Statement
  | [] => []
  | part :: parts => part.render :: renderAll parts

end

/-- Conditions behind a keyword, if there are any. -/
def conditionClause (keyword : String) (conditions : List Condition) : Statement :=
  if conditions.isEmpty then .empty
  else .raw keyword ++ Statement.joined " AND " (renderAll conditions)

def Join.render (join : Join) : Statement :=
  .raw (" LEFT JOIN " ++ join.table.sql) ++ conditionClause " ON " join.conditions

def SortColumn.sql : SortColumn → String
  | column ref => ref.sql
  | output name => ident name

def directionClause : Option OrderDirection → String
  | some .asc => " ASC"
  | some .desc => " DESC"
  | none => ""

def SortKey.sql (key : SortKey) : String :=
  key.strategy.orderKey key.column.sql ++ directionClause key.direction

/-- Sort keys, if there are any. -/
def orderClause (keys : List SortKey) : String :=
  if keys.isEmpty then "" else " ORDER BY " ++ ", ".intercalate (keys.map SortKey.sql)

/-- The limit that stands in for none where an offset needs one. -/
def unboundedLimit : Nat := 2147483647

def Page.sql (page : Page) : String :=
  match page.limit, page.offset with
  | some limit, some offset => s!" LIMIT {limit.toNat} OFFSET {offset.toNat}"
  | some limit, none => s!" LIMIT {limit.toNat}"
  | none, some offset => s!" LIMIT {unboundedLimit} OFFSET {offset.toNat}"
  | none, none => ""

def Summary.sql : Summary → String
  | rows => "COUNT(*)"
  | values column false => "COUNT(" ++ column.sql ++ ")"
  | values column true => "COUNT(DISTINCT " ++ column.sql ++ ")"
  | function f column => f.sql column.sql

/-- Groups, if rows are grouped. -/
def groupClause (keys : List Statement) : Statement :=
  if keys.isEmpty then .empty else .raw " GROUP BY " ++ Statement.joined ", " keys

/-- An output and its name. -/
def namedOutput (value : Statement) (name : Option String) : Statement :=
  match name with
  | some name => value ++ .raw (" AS " ++ ident name)
  | none => value

mutual

/-- An output. -/
def Expr.render : Expr → Statement
  | .projected strategy column => .raw (strategy.project column.sql)
  | .summary s => .raw s.sql
  | .output name => .raw (ident name)
  | .allOf tableAlias => .raw (ident tableAlias ++ ".*")
  | .object [] => .raw "JSON('\x7b\x7d')"
  | .object (member :: members) =>
    .raw "JSON_OBJECT(" ++ Statement.joined ", " (renderMembers (member :: members)) ++ .raw ")"
  | .array [] => .raw "JSON('[]')"
  | .array (item :: items) =>
    .raw "JSON_ARRAY(" ++ Statement.joined ", " (renderItems (item :: items)) ++ .raw ")"
  | .collect item order =>
    .raw "TO_JSON(LIST(" ++ item.render ++ .raw (orderClause order) ++ .raw "))"
  | .coalesce value fallback =>
    .raw "COALESCE(" ++ value.render ++ .raw ", " ++ fallback.render ++ .raw ")"
  | .rowsOf document => .raw "JSON_EXTRACT(" ++ document.render ++ .raw ", '$.rows')"
  | .subquery select => select.render.parenthesized

/-- Members of an object, each its key and its value. -/
def renderMembers : List (String × Expr) → List Statement
  | [] => []
  | (name, value) :: members =>
    (.raw (key name ++ ", ") ++ value.render) :: renderMembers members

def renderItems : List Expr → List Statement
  | [] => []
  | item :: items => item.render :: renderItems items

def renderOutputs : List (Expr × Option String) → List Statement
  | [] => []
  | (value, name) :: outputs => namedOutput value.render name :: renderOutputs outputs

def Source.render : Source → Statement
  | .nothing => .empty
  | .tables table joins =>
    .raw (" FROM " ++ table.sql) ++ Statement.joined "" (joins.map Join.render)
  | .derived select tableAlias =>
    .raw " FROM (" ++ select.render ++ .raw (") AS " ++ ident tableAlias)

/-- A select. -/
def Select.render : Select → Statement
  | ⟨outputs, source, conditions, groupBy, orderBy, page⟩ =>
    .raw "SELECT " ++ Statement.joined ", " (renderOutputs outputs) ++ source.render ++
      conditionClause " WHERE " conditions ++ groupClause (renderItems groupBy) ++
      .raw (orderClause orderBy) ++ .raw page.sql

end

/-- A select whose one document is returned as text in a column `data`. -/
def Select.renderRoot (select : Select) : Statement :=
  .raw "SELECT CAST(" ++ select.render.parenthesized ++ .raw " AS VARCHAR) AS data"

end NestedSql.Sql
