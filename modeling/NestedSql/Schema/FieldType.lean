/-!
# Field types

The declared type of a column: a scalar name under any number of nullable and list wrappers, and
the scalars that statements know how to project, compare and sort.
-/

namespace NestedSql

/-- The declared type of a column. -/
inductive FieldType where
  | named (name : String)
  | nullable (underlying : FieldType)
  | array (element : FieldType)
deriving DecidableEq, Repr, Inhabited

namespace FieldType

/-- The scalar name under all wrappers. -/
def underlyingName : FieldType → String
  | named name => name
  | nullable underlying => underlying.underlyingName
  | array element => element.underlyingName

/-- A list wrapper stands somewhere in the chain. -/
def isArray : FieldType → Bool
  | named _ => false
  | nullable underlying => underlying.isArray
  | array _ => true

end FieldType

/-- An integer type too wide for a number in a document. -/
inductive WideInteger where
  | bigInt
  | uBigInt
  | hugeInt
  | uHugeInt
deriving DecidableEq, Repr

/-- The name of the type in a cast. -/
def WideInteger.sql : WideInteger → String
  | bigInt => "BIGINT"
  | uBigInt => "UBIGINT"
  | hugeInt => "HUGEINT"
  | uHugeInt => "UHUGEINT"

/-- A scalar with rules for projection, comparison and order. -/
inductive ScalarType where
  | boolean
  | string
  | int
  | float
  | wide (integer : WideInteger)
  | timestamp
  | timestampTz
  | json
deriving DecidableEq, Repr

namespace ScalarType

def name : ScalarType → String
  | boolean => "Boolean"
  | string => "String"
  | int => "Int"
  | float => "Float"
  | wide .bigInt => "BigInt"
  | wide .uBigInt => "UBigInt"
  | wide .hugeInt => "HugeInt"
  | wide .uHugeInt => "UHugeInt"
  | timestamp => "Timestamp"
  | timestampTz => "TimestampTz"
  | json => "JSON"

/-- All scalars. -/
def all : List ScalarType :=
  [boolean, string, int, float, wide .bigInt, wide .uBigInt, wide .hugeInt, wide .uHugeInt,
    timestamp, timestampTz, json]

/-- The scalar with this name. -/
def ofName? (text : String) : Option ScalarType := all.find? fun scalar => scalar.name == text

/-- The wide integer that the scalar is. -/
def wide? : ScalarType → Option WideInteger
  | wide integer => some integer
  | _ => none

theorem mem_all (scalar : ScalarType) : scalar ∈ all := by
  cases scalar with
  | wide integer => cases integer <;> simp [all]
  | _ => simp [all]

theorem ofName?_name (scalar : ScalarType) : ofName? scalar.name = some scalar := by
  cases scalar with
  | wide integer => cases integer <;> decide
  | _ => decide

theorem name_of_ofName? {text : String} {scalar : ScalarType} (h : ofName? text = some scalar) :
    scalar.name = text := by
  simpa using List.find?_some h

end ScalarType

end NestedSql
