import NestedSql.Request.Basic
import NestedSql.Sql.Formula
import NestedSql.Sql.Strategy

/-!
# Statement trees

The statements of a plan before they are text: conditions, tables and joins, sort keys, and nested
selects whose outputs build documents.
-/

namespace NestedSql

/-- A comparison of a column with a value. -/
inductive BinaryOperator where
  | eq
  | neq
  | gt
  | lt
  | gte
  | lte
  | like
  | glob
deriving DecidableEq, Repr

namespace BinaryOperator

/-- The names of the operators. -/
def table : List (String × BinaryOperator) :=
  [("_eq", eq), ("_neq", neq), ("_gt", gt), ("_lt", lt), ("_gte", gte), ("_lte", lte),
    ("_like", like), ("_glob", glob)]

/-- The operator with this name. -/
def ofName? (name : String) : Option BinaryOperator := table.lookup name

def sql : BinaryOperator → String
  | eq => "="
  | neq => "!="
  | gt => ">"
  | lt => "<"
  | gte => ">="
  | lte => "<="
  | like => "LIKE"
  | glob => "GLOB"

/-- The value is a pattern and is bound as it is. -/
def isPattern : BinaryOperator → Bool
  | like | glob => true
  | _ => false

end BinaryOperator

namespace Sql

/-- A column of an alias. -/
structure ColumnRef where
  tableAlias : String
  column : String
deriving DecidableEq, Repr

/-- A stored table under an alias. -/
structure Table where
  storage : String
  tableAlias : String
deriving DecidableEq, Repr

inductive Connective where
  | and
  | or
deriving DecidableEq, Repr

/-- A condition on rows. Negations and junctions bring their own parentheses. -/
inductive Condition where
  | one
  | tautology
  | equal (left right : ColumnRef)
  | isNull (column : ColumnRef)
  | compare (column : ColumnRef) (operator : BinaryOperator) (shape : ParamShape) (value : Param)
  | junction (connective : Connective) (parts : List Condition)
  | not (part : Condition)
  | group (part : Condition)
  | existsIn (table : Table) (conditions : List Condition)

instance : Inhabited Condition := ⟨.one⟩

/-- A left join under the conjunction of its conditions. -/
structure Join where
  table : Table
  conditions : List Condition

/-- What a sort key reads: a column, or an output of the select inside. -/
inductive SortColumn where
  | column (ref : ColumnRef)
  | output (name : String)
deriving DecidableEq, Repr

/-- A sort key; one without a direction is ascending. -/
structure SortKey where
  column : SortColumn
  strategy : Strategy
  direction : Option OrderDirection
deriving DecidableEq, Repr

/-- A window on the rows. -/
structure Page where
  limit : Option UInt32
  offset : Option UInt32
deriving DecidableEq, Repr

def Page.all : Page := ⟨none, none⟩

/-- An aggregate over the rows of a group. -/
inductive Summary where
  | rows
  | values (column : ColumnRef) (distinct : Bool)
  | function (function : AggregateFunction) (column : ColumnRef)
deriving DecidableEq, Repr

mutual

/-- An output of a select. Objects and arrays are documents. -/
inductive Expr where
  | projected (strategy : Strategy) (column : ColumnRef)
  | summary (summary : Summary)
  | output (name : String)
  | allOf (tableAlias : String)
  | object (members : List (String × Expr))
  | array (items : List Expr)
  | collect (item : Expr) (order : List SortKey)
  | coalesce (value fallback : Expr)
  | rowsOf (document : Expr)
  | subquery (select : Select)

/-- Where a select takes its rows from. -/
inductive Source where
  | nothing
  | tables (table : Table) (joins : List Join)
  | derived (select : Select) (tableAlias : String)

/-- A select; outputs may be named. -/
structure Select where
  outputs : List (Expr × Option String)
  source : Source
  conditions : List Condition
  groupBy : List Expr
  orderBy : List SortKey
  page : Page

end

instance : Inhabited Expr := ⟨.object []⟩

/-- A select of one output without conditions, groups or order. -/
def Select.single (output : Expr) (source : Source) : Select :=
  ⟨[(output, none)], source, [], [], [], .all⟩

end Sql

end NestedSql
