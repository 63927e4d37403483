import NestedSql.Compile.Classify
import NestedSql.Compile.Context

/-!
# Filters to conditions

The condition that a filter stands for in a scope. Parts are compiled from left to right and the
first fault is the answer. A comparison checks its operator, its column, the declaration of the
column, the scalar, and its value, in this order.
-/

namespace NestedSql.Compile

open Sql (Condition)

/-- The name of a compared column, which has to stand in scope without a path. -/
def comparedColumn : ComparisonTarget → Except CompileError String
  | .column name [] => return name
  | .column name _ => throw (.columnThroughPath name)
  | .rootColumn name => throw (.rootColumn name)

/-- The parameter for a compared value. -/
def comparedValue (context : Context) : ComparisonValue → Except CompileError Param
  | .scalar value => return .ofJson value
  | .variable name => do return .ofJson (← context.boundValue name)
  | .column _ => throw .comparisonWithColumn

/-- The operator with a name. -/
def operatorNamed (name : String) : Except CompileError BinaryOperator :=
  match BinaryOperator.ofName? name with
  | some operator => return operator
  | none => throw (.unknownOperator name)

/-- The form of the value that a column is compared with. Patterns are bound as they are. -/
def comparedShape (type : FieldType) (operator : BinaryOperator) :
    Except CompileError ParamShape :=
  if operator.isPattern then return .plain
  else do return (← classify type .comparison).paramShape

/-- A comparison with a value. -/
def comparison (context : Context) (scope : Scope) (target : ComparisonTarget) (operator : String)
    (value : ComparisonValue) : Except CompileError Condition := do
  let operator ← operatorNamed operator
  let column ← comparedColumn target
  let type ← context.fieldType scope.collection column
  let shape ← comparedShape type operator
  let param ← comparedValue context value
  return .compare (scope.column column) operator shape param

/-- A junction without parts holds of every row. -/
def junction (connective : Sql.Connective) (parts : List Condition) : Condition :=
  if parts.isEmpty then .one else .junction connective parts

mutual

/-- The condition that a filter stands for. -/
def predicate (context : Context) (scope : Scope) : Expression → Except CompileError Condition
  | .and parts => do return junction .and (← predicates context scope parts)
  | .or parts => do return junction .or (← predicates context scope parts)
  | .not part => do return .not (← predicate context scope part)
  | .unary target .isNull => do
    let column ← comparedColumn target
    let _ ← context.fieldType scope.collection column
    return .isNull (scope.column column)
  | .binary target operator value => comparison context scope target operator value
  | .existsIn (.unrelated collection) _ => throw (.unrelatedExists collection)
  | .existsIn (.related name) filter => do
    let relationship ← context.relationship name
    let storage ← context.storage relationship.target
    let inner := scope.existing relationship.target
    let condition ← existsCondition context inner filter
    return .existsIn ⟨storage, inner.tableAlias⟩
      (condition :: joinConditions relationship scope.tableAlias inner.tableAlias)

/-- The condition inside an existence test. -/
def existsCondition (context : Context) (scope : Scope) :
    Option Expression → Except CompileError Condition
  | none => return .tautology
  | some filter => do return .group (← predicate context scope filter)

def predicates (context : Context) (scope : Scope) :
    List Expression → Except CompileError (List Condition)
  | [] => return []
  | part :: parts => do
    let condition ← predicate context scope part
    return condition :: (← predicates context scope parts)

end

end NestedSql.Compile
