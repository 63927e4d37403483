import NestedSql.Entries
import NestedSql.Sql.Tree

/-!
# Aliases and the items they name

A reference names an alias. The alias is looked for among the items of the FROM clause around the
reference, then of the clause around that one, and so on; the first item that bears it is meant.
The select inside a derived table does not see the alias of the derived table, an ON condition sees
the items up to its own, and an existence test brings a clause of one table. Which item a
reference was meant for is not known here: only which one it finds.
-/

namespace NestedSql.Sql

/-- An item of a FROM clause: the number of clauses around its own, its place in the clause, and
its storage text if it is a stored table. -/
structure Item where
  depth : Nat
  index : Nat
  storage : Option String
deriving DecidableEq, Repr

/-- A reference to a column of an item, or to all of them. -/
structure Reference where
  item : Item
  column : Option String
deriving DecidableEq, Repr

/-- The aliases of a FROM clause in order, each with the storage text of a stored table. -/
abbrev Clause := Entries (Option String)

/-- The items of a clause. -/
def Clause.items (depth : Nat) (clause : Clause) : Entries Item :=
  clause.mapIdx fun index entry => (entry.1, ⟨depth, index, entry.2⟩)

def Table.entry (table : Table) : String × Option String :=
  (table.tableAlias, some table.storage)

def Join.entry (join : Join) : String × Option String := join.table.entry

/-! ## Resolution -/

/-- The items that can be seen, those of the innermost clause first. -/
structure Visible where
  depth : Nat
  items : Entries Item

namespace Visible

/-- Nothing can be seen outside a statement. -/
def outside : Visible := ⟨0, []⟩

/-- What can be seen inside one more clause. -/
def enter (visible : Visible) (clause : Clause) : Visible :=
  ⟨visible.depth + 1, clause.items visible.depth ++ visible.items⟩

/-- The item that an alias names. -/
def item? (visible : Visible) (tableAlias : String) : Option Item :=
  Entries.get? tableAlias visible.items

def column (visible : Visible) (ref : ColumnRef) : Option Reference :=
  (visible.item? ref.tableAlias).map (⟨·, some ref.column⟩)

def row (visible : Visible) (tableAlias : String) : Option Reference :=
  (visible.item? tableAlias).map (⟨·, none⟩)

end Visible

/-! ## References of a select, in the order of its text -/

mutual

def Condition.references (visible : Visible) : Condition → List (Option Reference)
  | .one | .tautology => []
  | .equal left right => [visible.column left, visible.column right]
  | .isNull column | .compare column _ _ _ => [visible.column column]
  | .junction _ parts => referencesAll visible parts
  | .not part | .group part => part.references visible
  | .existsIn table conditions => referencesAll (visible.enter [table.entry]) conditions

def referencesAll (visible : Visible) : List Condition → List (Option Reference)
  | [] => []
  | part :: parts => part.references visible ++ referencesAll visible parts

end

/-- The references of ON conditions behind the first items of their clause. -/
def joinReferences (visible : Visible) : Clause → List Join → List (Option Reference)
  | _, [] => []
  | before, join :: joins =>
    referencesAll (visible.enter (before ++ [join.entry])) join.conditions ++
      joinReferences visible (before ++ [join.entry]) joins

def SortKey.references (visible : Visible) (key : SortKey) : List (Option Reference) :=
  match key.column with
  | .column ref => [visible.column ref]
  | .output _ => []

def Summary.references (visible : Visible) : Summary → List (Option Reference)
  | rows => []
  | values column _ | function _ column => [visible.column column]

/-- The items of a table and its joins. -/
def fromClause (table : Table) (joins : List Join) : Clause :=
  table.entry :: joins.map Join.entry

def Source.within (visible : Visible) : Source → Visible
  | nothing => visible
  | tables table joins => visible.enter (fromClause table joins)
  | derived _ tableAlias => visible.enter [(tableAlias, none)]

mutual

def Expr.references (visible : Visible) : Expr → List (Option Reference)
  | .projected _ ref => [visible.column ref]
  | .summary s => s.references visible
  | .output _ => []
  | .allOf tableAlias => [visible.row tableAlias]
  | .object members => memberReferences visible members
  | .array items => itemReferences visible items
  | .collect item order => item.references visible ++ order.flatMap (SortKey.references visible)
  | .coalesce value fallback => value.references visible ++ fallback.references visible
  | .rowsOf document => document.references visible
  | .subquery select => select.references visible

def memberReferences (visible : Visible) : List (String × Expr) → List (Option Reference)
  | [] => []
  | (_, value) :: members => value.references visible ++ memberReferences visible members

def itemReferences (visible : Visible) : List Expr → List (Option Reference)
  | [] => []
  | item :: items => item.references visible ++ itemReferences visible items

def outputReferences (visible : Visible) : List (Expr × Option String) → List (Option Reference)
  | [] => []
  | (value, _) :: outputs => value.references visible ++ outputReferences visible outputs

def Source.references (visible : Visible) : Source → List (Option Reference)
  | .nothing => []
  | .tables table joins => joinReferences visible [table.entry] joins
  | .derived select _ => select.references visible

def Select.references (visible : Visible) : Select → List (Option Reference)
  | ⟨outputs, source, conditions, groupBy, orderBy, _⟩ =>
    outputReferences (source.within visible) outputs ++ source.references visible ++
      referencesAll (source.within visible) conditions ++
      itemReferences (source.within visible) groupBy ++
      orderBy.flatMap (SortKey.references (source.within visible))

end

/-! ## FROM clauses -/

mutual

/-- The sources of the existence tests in a condition. -/
def Condition.sources : Condition → List Source
  | .junction _ parts => conditionSources parts
  | .not part | .group part => part.sources
  | .existsIn table conditions => .tables table [] :: conditionSources conditions
  | _ => []

def conditionSources : List Condition → List Source
  | [] => []
  | part :: parts => part.sources ++ conditionSources parts

end

mutual

/-- The sources of all selects in an output. -/
def Expr.sources : Expr → List Source
  | .object members => memberSources members
  | .array items => itemSources items
  | .collect value _ | .rowsOf value => value.sources
  | .coalesce value fallback => value.sources ++ fallback.sources
  | .subquery select => select.sources
  | _ => []

def memberSources : List (String × Expr) → List Source
  | [] => []
  | (_, value) :: members => value.sources ++ memberSources members

def itemSources : List Expr → List Source
  | [] => []
  | item :: items => item.sources ++ itemSources items

def outputSources : List (Expr × Option String) → List Source
  | [] => []
  | (value, _) :: outputs => value.sources ++ outputSources outputs

/-- A source and the sources inside it. -/
def Source.sources : Source → List Source
  | .nothing => [.nothing]
  | .tables table joins =>
    .tables table joins :: joins.flatMap fun join => conditionSources join.conditions
  | .derived select tableAlias => .derived select tableAlias :: select.sources

def Select.sources : Select → List Source
  | ⟨outputs, source, conditions, groupBy, _, _⟩ =>
    outputSources outputs ++ source.sources ++ conditionSources conditions ++ itemSources groupBy

end

/-- The aliases of a table and its joins are distinct, and every ON condition is resolved by its own
item and the items to its left, whatever stands around the clause. -/
structure SeparateClause (table : Table) (joins : List Join) : Prop where
  distinct : Entries.Distinct (fromClause table joins)
  resolved : none ∉ joinReferences .outside [table.entry] joins

def Source.Separate : Source → Prop
  | tables table joins => SeparateClause table joins
  | _ => True

end NestedSql.Sql
