import NestedSql.Json.Text

/-!
# Parameters

A value bound to a placeholder: null, a truth value, a signed or unsigned word, a double, or text.
Arrays and objects are bound as their compact texts.
-/

namespace NestedSql

/-- A bound value. -/
inductive Param where
  | null
  | bool (value : Bool)
  | int (value : Int64)
  | uint (value : UInt64)
  | float (value : Double)
  | string (value : String)
deriving DecidableEq

namespace Param

/-- An integer is unsigned only where no signed word holds it. -/
def ofNumber : Number → Param
  | .integer value _ =>
    if value < 9223372036854775808 then int (Int64.ofInt value)
    else uint (UInt64.ofNat value.toNat)
  | .double value => float value

/-- The parameter that carries a JSON value. -/
def ofJson : Json → Param
  | .null => null
  | .bool value => bool value
  | .number value => ofNumber value
  | .string value => string value
  | structured => string structured.text

/-- The parameter as a JSON value. -/
def json : Param → Json
  | null => .null
  | bool value => .bool value
  | int value => .number (.ofInt64 value)
  | uint value => .number (.ofUInt64 value)
  | float value => .number (.double value)
  | string value => .string value

/-- The engine's type for the bound value. -/
def engineType : Param → String
  | null => "Null"
  | bool _ => "Boolean"
  | int _ => "BigInt"
  | uint _ => "UBigInt"
  | float _ => "Double"
  | string _ => "Text"

end Param

end NestedSql
