import NestedSql.Compile.Error
import NestedSql.Sql.Strategy

/-!
# Choosing a strategy

The declared type of a column and the place where it is used decide on its strategy. Lists are
compared and sorted as wholes, and a scalar without rules is refused.
-/

namespace NestedSql.Compile

/-- Where a column is used. -/
inductive Usage where
  | projection
  | comparison
  | ordering
deriving DecidableEq, Repr

/-- The scalar under all wrappers. -/
def scalarOf (type : FieldType) : Except CompileError ScalarType :=
  match ScalarType.ofName? type.underlyingName with
  | some scalar => return scalar
  | none => throw (.unknownScalar type.underlyingName)

/-- The strategy for a scalar that stands alone or in a list. -/
def strategy (scalar : ScalarType) (isArray : Bool) : Usage → Strategy
  | .projection =>
    match scalar with
    | .wide _ => .castAsText
    | _ => .plainColumn
  | .comparison =>
    if isArray then .plainColumn
    else match scalar with
      | .timestamp | .timestampTz => .timestampCompare
      | .wide integer => .wideIntegerCompare integer
      | _ => .plainColumn
  | .ordering =>
    if isArray then .plainColumn
    else match scalar with
      | .string => .caseInsensitiveOrder
      | _ => .plainColumn

/-- The strategy for a column of the type. -/
def classify (type : FieldType) (usage : Usage) : Except CompileError Strategy := do
  return strategy (← scalarOf type) type.isArray usage

end NestedSql.Compile
