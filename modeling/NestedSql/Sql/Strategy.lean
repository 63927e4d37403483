import NestedSql.Schema.FieldType
import NestedSql.Sql.Statement

/-!
# Strategies

How a column is projected, compared and sorted. Wide integers leave as text, because a number in a
document cannot hold them all; they and timestamps are compared with a value cast to their type;
texts are sorted without regard to case.
-/

namespace NestedSql

/-- The types that compared values are cast to. -/
inductive CastType where
  | timestamp
  | wide (integer : WideInteger)
deriving DecidableEq, Repr

def CastType.sql : CastType → String
  | timestamp => "TIMESTAMP"
  | wide integer => integer.sql

/-- The form of a placeholder. -/
inductive ParamShape where
  | plain
  | cast (type : CastType)
deriving DecidableEq, Repr

/-- A placeholder of this form with its value. -/
def ParamShape.bind (shape : ParamShape) (param : Param) : Statement :=
  match shape with
  | plain => .bind param
  | cast type => .bindCast param type.sql

/-- The form without a value. -/
def ParamShape.text (shape : ParamShape) : String := (shape.bind .null).sql

/-- What is done with a column in one place of a statement. -/
inductive Strategy where
  | plainColumn
  | castAsText
  | timestampCompare
  | wideIntegerCompare (integer : WideInteger)
  | caseInsensitiveOrder
deriving DecidableEq, Repr

namespace Strategy

/-- The name of the strategy, with the type that it compares in. -/
def label : Strategy → String
  | plainColumn => "plain_column"
  | castAsText => "cast_as_text"
  | timestampCompare => "timestamp_compare"
  | wideIntegerCompare integer => "wide_integer_compare " ++ integer.sql
  | caseInsensitiveOrder => "case_insensitive_order"

/-- The column in a list of outputs. -/
def project (strategy : Strategy) (column : String) : String :=
  match strategy with
  | castAsText => "CAST(" ++ column ++ " AS TEXT)"
  | _ => column

/-- The form of a value that the column is compared with. -/
def paramShape : Strategy → ParamShape
  | timestampCompare => .cast .timestamp
  | wideIntegerCompare integer => .cast (.wide integer)
  | _ => .plain

/-- The column as a sort key, without its direction. -/
def orderKey (strategy : Strategy) (column : String) : String :=
  match strategy with
  | caseInsensitiveOrder => column ++ " COLLATE NOCASE"
  | _ => column

end Strategy

end NestedSql
