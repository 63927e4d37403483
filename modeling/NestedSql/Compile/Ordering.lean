import NestedSql.Compile.Predicate

/-!
# Orders to joins and sort keys

Every hop of an order path becomes a left join under the alias of the path so far, unless that
alias is joined already. The key reads the column at the end of its path.
-/

namespace NestedSql.Compile

open Sql (Condition Join SortKey)

/-- The joins so far and the sort keys so far. -/
structure Ordering where
  joins : List Join
  keys : List SortKey

namespace Ordering

def empty : Ordering := ⟨[], []⟩

def isJoined (ordering : Ordering) (tableAlias : String) : Bool :=
  ordering.joins.any fun join => join.table.tableAlias == tableAlias

def addJoin (ordering : Ordering) (join : Join) : Ordering :=
  { ordering with joins := ordering.joins ++ [join] }

def addKey (ordering : Ordering) (key : SortKey) : Ordering :=
  { ordering with keys := ordering.keys ++ [key] }

end Ordering

/-- The conditions of a hop: its mapping and its filter, or one that always holds. -/
def hopConditions (context : Context) (source target : Scope) (relationship : Relationship)
    (filter : Option Expression) : Except CompileError (List Condition) := do
  let mapping := joinConditions relationship source.tableAlias target.tableAlias
  let conditions ← match filter with
    | none => pure mapping
    | some filter => do pure (mapping ++ [.group (← predicate context target filter)])
  return if conditions.isEmpty then [.one] else conditions

/-- One hop: the scope behind it, and its join if it is new. -/
def followHop (context : Context) (state : Scope × Ordering) (element : PathElement) :
    Except CompileError (Scope × Ordering) := do
  let (scope, ordering) := state
  let relationship ← context.relationship element.relationship
  let target := scope.hop relationship.target
  if ordering.isJoined target.tableAlias then return (target, ordering)
  let storage ← context.storage relationship.target
  let conditions ← hopConditions context scope target relationship element.predicate
  return (target, ordering.addJoin ⟨⟨storage, target.tableAlias⟩, conditions⟩)

/-- The scope at the end of a path. -/
def followPath (context : Context) (scope : Scope) (ordering : Ordering) (path : List PathElement) :
    Except CompileError (Scope × Ordering) :=
  path.foldlM (followHop context) (scope, ordering)

/-- One sort key. -/
def addElement (context : Context) (scope : Scope) (ordering : Ordering)
    (element : OrderByElement) : Except CompileError Ordering :=
  match element.target with
  | .column name path => do
    let (target, ordering) ← followPath context scope ordering path
    let type ← context.fieldType target.collection name
    let strategy ← classify type .ordering
    return ordering.addKey ⟨.column (target.column name), strategy, some element.direction⟩
  | .singleColumnAggregate .. | .starCountAggregate .. => throw .orderByAggregate

/-- The joins and keys of an order. -/
def ordering (context : Context) (scope : Scope) (orderBy : Option OrderBy) :
    Except CompileError Ordering :=
  match orderBy with
  | none => return .empty
  | some orderBy => orderBy.elements.foldlM (addElement context scope) .empty

end NestedSql.Compile
