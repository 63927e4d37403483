import NestedSql.Double.Shortest
import NestedSql.Json.Basic
import NestedSql.Text.Hex

/-!
# The compact text of a JSON value

No spaces, members in order, and a string escaped only where it must be: quotes, backslashes and
control characters.
-/

namespace NestedSql

namespace Json

/-- One character inside a string literal. -/
def escape (c : Char) : List Char :=
  if c = '"' then ['\\', '"']
  else if c = '\\' then ['\\', '\\']
  else if c = '\n' then ['\\', 'n']
  else if c = '\r' then ['\\', 'r']
  else if c = '\t' then ['\\', 't']
  else if c.toNat = 8 then ['\\', 'b']
  else if c.toNat = 12 then ['\\', 'f']
  else if c.toNat < 32 then
    ['\\', 'u', '0', '0', Text.hexDigit (c.toNat / 16), Text.hexDigit (c.toNat % 16)]
  else [c]

/-- A string literal. -/
def quote (text : String) : List Char := '"' :: (text.toList.flatMap escape ++ ['"'])

end Json

/-- The digits of an integer or the shortest text of a double. -/
def Number.chars : Number → List Char
  | .integer value _ => (toString value).toList
  | .double value => value.text.toList

namespace Json

mutual

/-- The compact text as characters. -/
def chars : Json → List Char
  | .null => ['n', 'u', 'l', 'l']
  | .bool true => ['t', 'r', 'u', 'e']
  | .bool false => ['f', 'a', 'l', 's', 'e']
  | .number value => value.chars
  | .string value => quote value
  | .array [] => ['[', ']']
  | .array (item :: items) => '[' :: (chars item ++ tailItems items)
  | .object [] => ['{', '}']
  | .object ((name, value) :: members) =>
    '{' :: (quote name ++ ':' :: (chars value ++ tailMembers members))

/-- The items after the first, and the closing bracket. -/
def tailItems : List Json → List Char
  | [] => [']']
  | item :: items => ',' :: (chars item ++ tailItems items)

/-- The members after the first, and the closing brace. -/
def tailMembers : List (String × Json) → List Char
  | [] => ['}']
  | (name, value) :: members => ',' :: (quote name ++ ':' :: (chars value ++ tailMembers members))

end

/-- The compact text. -/
def text (value : Json) : String := String.ofList value.chars

end Json

end NestedSql
