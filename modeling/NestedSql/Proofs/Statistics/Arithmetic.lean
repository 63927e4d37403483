import Mathlib.Algebra.Ring.Rat
import Mathlib.Data.List.ReduceOption
import NestedSql.Proofs.Reading.BoolTree

/-!
# A reader of SQL arithmetic

The reader takes the tokens of an expression to a tree. Products and quotients bind tighter than
sums and differences, operators of one level group to the left, and parentheses group and leave no
trace. A tree has a value over the cells of one column, computed with exact fractions: aggregates
pass over NULL, and other functions and operators give NULL when they get it. What is no number has
no value, nor has a quotient by zero or a root of a negative number.
-/

namespace NestedSql.Sql

/-- Arithmetic as it is read. -/
inductive Arithmetic where
  | number (digits : String)
  | literal (text : String)
  | column (ref : ColumnRef)
  | distinct (operand : Arithmetic)
  | cast (operand : Arithmetic) (type : String)
  | call (function : String) (argument : Arithmetic)
  | apply (function : String) (first second : Arithmetic)
  | binary (sign : Char) (left right : Arithmetic)
  | whenLess (left right result otherwise : Arithmetic)
deriving DecidableEq, Repr

namespace Arithmetic

/-! ## Reading -/

/-- What is read from the front of some tokens, and the tokens behind it. -/
abbrev Reader (α : Type) := List Token → Option (α × List Token)

/-- An operand, with a reader for what stands inside its parentheses or between its words. -/
@[simp] def primary (inner : Reader Arithmetic) : Reader Arithmetic
  | .mark '(' :: rest => do
    match ← inner rest with
    | (tree, .mark ')' :: rest) => some (tree, rest)
    | _ => none
  | .name tableAlias :: .mark '.' :: .name field :: rest =>
    some (.column ⟨tableAlias, field⟩, rest)
  | .literal text :: rest => some (.literal text, rest)
  | .word "DISTINCT" :: rest => do
    let (tree, rest) ← inner rest
    some (.distinct tree, rest)
  | .word "CAST" :: .mark '(' :: rest => do
    match ← inner rest with
    | (tree, .word "AS" :: .word type :: .mark ')' :: rest) => some (.cast tree type, rest)
    | _ => none
  | .word "CASE" :: .word "WHEN" :: rest => do
    match ← inner rest with
    | (left, .sign "<" :: rest) =>
      match ← inner rest with
      | (right, .word "THEN" :: rest) =>
        match ← inner rest with
        | (result, .word "ELSE" :: rest) =>
          match ← inner rest with
          | (otherwise, .word "END" :: rest) => some (.whenLess left right result otherwise, rest)
          | _ => none
        | _ => none
      | _ => none
    | _ => none
  | .word function :: .mark '(' :: rest => do
    match ← inner rest with
    | (argument, .mark ')' :: rest) => some (.call function argument, rest)
    | (first, .mark ',' :: rest) =>
      match ← inner rest with
      | (second, .mark ')' :: rest) => some (.apply function first second, rest)
      | _ => none
    | _ => none
  | .word text :: rest =>
    if text.toList.all Char.isDigit then some (.number text, rest) else none
  | _ => none

/-- Operators of one level behind what has been read, the first of them applied first. They are at
most as many as the bound. -/
def operators (signs : List Char) (operand : Reader Arithmetic) :
    (bound : Nat) → Arithmetic → Reader Arithmetic
  | 0, _, _ => none
  | bound + 1, left, .mark sign :: rest =>
    if sign ∈ signs then do
      let (right, rest) ← operand rest
      operators signs operand bound (.binary sign left right) rest
    else some (left, .mark sign :: rest)
  | _ + 1, left, rest => some (left, rest)

/-- Operands with operators of one level between them. -/
def level (signs : List Char) (operand : Reader Arithmetic) (bound : Nat) : Reader Arithmetic :=
  fun tokens => do
    let (first, rest) ← operand tokens
    operators signs operand bound first rest

def product (inner : Reader Arithmetic) (bound : Nat) : Reader Arithmetic :=
  level ['*', '/'] (primary inner) bound

/-- An expression. The bound is on the parentheses inside each other and on the operands of each
level. -/
def sum : Nat → Reader Arithmetic
  | 0, _ => none
  | bound + 1, tokens =>
    level ['+', '-'] (product (sum bound) (bound + 1)) (bound + 1) tokens

/-- The expression that a text is. A text of `n` tokens has fewer than `n + 1` parentheses inside
each other and operands of one level. -/
def read? (sql : String) : Option Arithmetic := do
  let tokens ← tokens? sql.toList
  match ← sum (tokens.length + 1) tokens with
  | (tree, []) => some tree
  | _ => none

example : read? "1 - 2 * 3 - SUM(\"t\".\"x\") / 4" = some
    (.binary '-' (.binary '-' (.number "1") (.binary '*' (.number "2") (.number "3")))
      (.binary '/' (.call "SUM" (.column ⟨"t", "x"⟩)) (.number "4"))) := by
  rfl

/-! ## Values -/

/-- A number or NULL. -/
abbrev Quantity := Option ℚ

/-- The value of an operator. -/
def operate? (sign : Char) : Quantity → Quantity → Option Quantity
  | some x, some y =>
    if sign = '+' then some (some (x + y))
    else if sign = '-' then some (some (x - y))
    else if sign = '*' then some (some (x * y))
    else if sign = '/' ∧ y ≠ 0 then some (some (x / y))
    else none
  | _, _ => some none

/-- The value of a function of two arguments. -/
def applied? (function : String) (first second : Quantity) : Option Quantity :=
  if function = "NULLIF" then some (if first = second then none else first)
  else if function = "POWER" then
    match first, second with
    | some x, some y => if 0 ≤ y ∧ y.den = 1 then some (some (x ^ y.num.toNat)) else none
    | _, _ => some none
  else none

/-- The value of an aggregate over the cells of a group. -/
def aggregate? (function : String) (cells : List Quantity) : Option Quantity :=
  let present := cells.reduceOption
  if function = "COUNT" then some (some present.length)
  else if function = "SUM" then some (if present.isEmpty then none else some present.sum)
  else none

def digitsValue (digits : String) : ℚ := Nat.ofDigitChars 10 digits.toList 0

/-- The value in a row whose cell in the column is given. -/
@[simp] def inRow? (column : ColumnRef) (cell : Quantity) : Arithmetic → Option Quantity
  | .number digits => some (some (digitsValue digits))
  | .column ref => if ref = column then some cell else none
  | .cast operand type => if type = "DOUBLE" then operand.inRow? column cell else none
  | .apply function first second => do
    applied? function (← first.inRow? column cell) (← second.inRow? column cell)
  | .binary sign left right => do
    operate? sign (← left.inRow? column cell) (← right.inRow? column cell)
  | _ => none

/-- The value over a group of rows whose cells in the column are given, with a way to take roots. -/
@[simp] def inGroup? (root : ℚ → ℚ) (column : ColumnRef) (cells : List Quantity) :
    Arithmetic → Option Quantity
  | .number digits => some (some (digitsValue digits))
  | .cast operand type => if type = "DOUBLE" then operand.inGroup? root column cells else none
  | .call function argument =>
    if function = "SQRT" then do
      match ← argument.inGroup? root column cells with
      | none => some none
      | some x => if x < 0 then none else some (some (root x))
    else do aggregate? function (← cells.mapM fun cell => argument.inRow? column cell)
  | .apply function first second => do
    applied? function (← first.inGroup? root column cells) (← second.inGroup? root column cells)
  | .binary sign left right => do
    operate? sign (← left.inGroup? root column cells) (← right.inGroup? root column cells)
  | .whenLess left right result otherwise => do
    match ← left.inGroup? root column cells, ← right.inGroup? root column cells with
    | some x, some y =>
      if x < y then result.inGroup? root column cells else otherwise.inGroup? root column cells
    | _, _ => otherwise.inGroup? root column cells
  | _ => none

end Arithmetic

end NestedSql.Sql
