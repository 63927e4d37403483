import NestedSql.Double.Shortest
import NestedSql.Json.Written
import NestedSql.Text.Quoted

/-!
# Faults of documents

A document is malformed when its text is not JSON, and mismatched when it is JSON of another shape
than the one wanted. The wording of every mismatch is `Mismatch.message`.
-/

namespace NestedSql.Wire

/-- What a document has. -/
inductive Found where
  | null
  | boolean (value : Bool)
  | integer (value : Int)
  | double (value : Double)
  | string (value : String)
  | sequence
  | map
deriving DecidableEq

/-- What was wanted in its place. -/
inductive Wanted where
  | string
  | boolean
  | unsigned32
  | unit
  | sequence
  | map
  | struct (name : String)
  | union (name : String)
  | tag
  | symbol
deriving DecidableEq

/-- What a sequence of another length was wanted to be. -/
inductive Extent where
  | struct (name : String) (count : Nat)
  | variant (union label : String) (count : Nat)
  | fewer
  | exactly (count : Nat)
deriving DecidableEq

/-- The first difference between a document and the wanted shape. -/
inductive Mismatch where
  | wrongType (found : Found) (wanted : Wanted)
  | outOfRange (value : Int)
  | wrongTagIndex (index count : Nat)
  | severalNames
  | unknownVariant (name : String) (known : List String)
  | missingField (name : String)
  | duplicateField (name : String)
  | wrongLength (length : Nat) (wanted : Extent)
deriving DecidableEq

/-- Why a document could not be read. -/
inductive Fault where
  | malformed
  | mismatch (cause : Mismatch)
deriving DecidableEq

def Found.text : Found → String
  | null => "null"
  | boolean value => s!"boolean `{value}`"
  | integer value => s!"integer `{value}`"
  | double value => s!"floating point `{value.text}`"
  | string value => s!"string {Text.quoted value}"
  | sequence => "sequence"
  | map => "map"

def Wanted.text : Wanted → String
  | string => "a string"
  | boolean => "a boolean"
  | unsigned32 => "u32"
  | unit => "unit"
  | sequence => "a sequence"
  | map => "a map"
  | struct name => s!"struct {name}"
  | union name => s!"internally tagged enum {name}"
  | tag => "variant identifier"
  | symbol => "string or map"

/-- A count of elements, singular for one. -/
def elements (count : Nat) : String :=
  if count = 1 then "1 element" else s!"{count} elements"

def Extent.text : Extent → String
  | struct name count => s!"struct {name} with {elements count}"
  | variant union label count => s!"struct variant {union}::{label} with {elements count}"
  | fewer => "fewer elements in array"
  | exactly count => s!"{elements count} in sequence"

/-- The known names: one alone, two with `or`, more as a list. -/
def oneOf (names : List String) : String :=
  match names.map fun name => s!"`{name}`" with
  | [] => "nothing"
  | [name] => name
  | [first, second] => s!"{first} or {second}"
  | names => "one of " ++ ", ".intercalate names

def Mismatch.message : Mismatch → String
  | wrongType found wanted => s!"invalid type: {found.text}, expected {wanted.text}"
  | outOfRange value => s!"invalid value: integer `{value}`, expected u32"
  | wrongTagIndex index count =>
    s!"invalid value: integer `{index}`, expected variant index 0 <= i < {count}"
  | severalNames => "invalid value: map, expected map with a single key"
  | unknownVariant name known => s!"unknown variant `{name}`, expected {oneOf known}"
  | missingField name => s!"missing field `{name}`"
  | duplicateField name => s!"duplicate field `{name}`"
  | wrongLength length wanted => s!"invalid length {length}, expected {wanted.text}"

end NestedSql.Wire

namespace NestedSql.Written

/-- What the document has at its head; a fault has nothing. -/
def found? : Written → Option Wire.Found
  | null => some .null
  | bool value => some (.boolean value)
  | number (.integer value _) => some (.integer value)
  | number (.double value) => some (.double value)
  | string value => some (.string value)
  | array _ _ => some .sequence
  | object _ _ => some .map
  | fault => none

end NestedSql.Written
