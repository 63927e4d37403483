import NestedSql.Double.Basic
import NestedSql.Entries

/-!
# JSON values

A number is an integer of at most 64 bits, signed or unsigned, or a double. Objects keep their
members in order; the values that readers build name each member once.
-/

namespace NestedSql

/-- An integer that a signed or an unsigned 64-bit word holds. -/
abbrev Number.InRange (value : Int) : Prop :=
  -9223372036854775808 ≤ value ∧ value < 18446744073709551616

/-- An integer that a signed or an unsigned 64-bit word holds, or a double. -/
inductive Number where
  | integer (value : Int) (range : Number.InRange value)
  | double (value : Double)
deriving DecidableEq

namespace Number

/-- The integer as a number, if it is in range. -/
def ofInt? (value : Int) : Option Number :=
  if range : InRange value then some (.integer value range) else none

/-- A number that an unsigned 32-bit word holds. -/
def ofUInt32 (value : UInt32) : Number :=
  .integer value.toNat ⟨by omega, by have := value.toNat_lt; omega⟩

/-- A number that an unsigned 64-bit word holds. -/
def ofUInt64 (value : UInt64) : Number :=
  .integer value.toNat ⟨by omega, by have := value.toNat_lt; omega⟩

/-- A number that a signed 64-bit word holds. -/
def ofInt64 (value : Int64) : Number :=
  .integer value.toInt ⟨by have := value.le_toInt; omega, by have := value.toInt_lt; omega⟩

end Number

/-- A JSON value. -/
inductive Json where
  | null
  | bool (value : Bool)
  | number (value : Number)
  | string (value : String)
  | array (items : List Json)
  | object (members : List (String × Json))

instance : Inhabited Json := ⟨.null⟩

namespace Json

def isObject : Json → Bool
  | .object _ => true
  | _ => false

end Json

end NestedSql
