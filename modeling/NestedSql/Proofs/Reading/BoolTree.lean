import NestedSql.Proofs.Reading.Token
import NestedSql.Sql.Tree

/-!
# A reader of SQL conditions

The reader takes the tokens of a condition to a tree. Comparisons bind tighter than NOT, NOT
tighter than AND, and AND tighter than OR; parentheses group and leave no trace. A chain of one
connective is one node over its members in order. Reading a statement hands its values to the
placeholders first, and fails unless all text and all values are used.
-/

namespace NestedSql.Sql

/-- A condition as it is read. -/
inductive BoolTree where
  | number (digits : String)
  | column (ref : ColumnRef)
  | value (param : Param)
  | cast (operand : BoolTree) (type : String)
  | compare (sign : String) (left right : BoolTree)
  | isNull (operand : BoolTree)
  | not (operand : BoolTree)
  | and (operands : List BoolTree)
  | or (operands : List BoolTree)
  | existsIn (table : List String) (tableAlias : String) (filter : BoolTree)

instance : Inhabited BoolTree := ⟨.number "1"⟩

namespace BoolTree

/-- A chain of one member is the member. -/
def joined (connect : List BoolTree → BoolTree) : List BoolTree → BoolTree
  | [tree] => tree
  | trees => connect trees

/-- What is read from the front of some tokens, and the tokens behind it. -/
abbrev Reader (α : Type) := List Token → Option (α × List Token)

/-- The sign of a comparison. -/
def comparisonSign? : Token → Option String
  | .sign text => if text ∈ ["=", "!=", ">", "<", ">=", "<="] then some text else none
  | .word text => if text ∈ ["LIKE", "GLOB"] then some text else none
  | _ => none

/-- A table name with dots between its parts. -/
def tableName : Reader (List String)
  | .name part :: .mark '.' :: rest => do
    let (parts, rest) ← tableName rest
    return (part :: parts, rest)
  | .name part :: rest => some ([part], rest)
  | _ => none

/-- An operand, with a reader for what stands inside its parentheses. -/
def operand (inner : Reader BoolTree) : Reader BoolTree
  | .mark '(' :: rest => do
    match ← inner rest with
    | (tree, .mark ')' :: rest) => some (tree, rest)
    | _ => none
  | .name tableAlias :: .mark '.' :: .name field :: rest =>
    some (.column ⟨tableAlias, field⟩, rest)
  | .value param :: rest => some (.value param, rest)
  | .word "CAST" :: .mark '(' :: rest => do
    match ← inner rest with
    | (tree, .word "AS" :: .word type :: .mark ')' :: rest) => some (.cast tree type, rest)
    | _ => none
  | .word "EXISTS" :: .mark '(' :: .word "SELECT" :: .word "1" :: .word "FROM" :: rest => do
    match ← tableName rest with
    | (table, .word "AS" :: .name tableAlias :: .word "WHERE" :: rest) =>
      match ← inner rest with
      | (filter, .mark ')' :: rest) => some (.existsIn table tableAlias filter, rest)
      | _ => none
    | _ => none
  | .word text :: rest =>
    if text.toList.all Char.isDigit then some (.number text, rest) else none
  | _ => none

/-- An operand, or a comparison of two. -/
def comparison (inner : Reader BoolTree) : Reader BoolTree := fun tokens => do
  match ← operand inner tokens with
  | (left, .word "IS" :: .word "NULL" :: rest) => some (.isNull left, rest)
  | (left, []) => some (left, [])
  | (left, token :: rest) =>
    match comparisonSign? token with
    | none => some (left, token :: rest)
    | some sign =>
      let (right, rest) ← operand inner rest
      some (.compare sign left right, rest)

/-- A comparison behind any number of negations. -/
def negation (inner : Reader BoolTree) : Reader BoolTree
  | .word "NOT" :: rest => do
    let (tree, rest) ← negation inner rest
    some (.not tree, rest)
  | tokens => comparison inner tokens

/-- The members of a chain with a word between each two, at most as many as the bound. -/
def chain (separator : String) (member : Reader BoolTree) : Nat → Reader (List BoolTree)
  | 0, _ => none
  | bound + 1, tokens => do
    match ← member tokens with
    | (first, .word text :: rest) =>
      if text = separator then do
        let (others, rest) ← chain separator member bound rest
        some (first :: others, rest)
      else some ([first], .word text :: rest)
    | (first, rest) => some ([first], rest)

/-- Negations with AND between them. -/
def conjunction (inner : Reader BoolTree) (bound : Nat) : Reader BoolTree := fun tokens => do
  let (trees, rest) ← chain "AND" (negation inner) bound tokens
  some (joined .and trees, rest)

/-- Conjunctions with OR between them. The bound is on the parentheses inside each other and on
the members of each chain. -/
def disjunction : Nat → Reader BoolTree
  | 0, _ => none
  | bound + 1, tokens => do
    let inner := disjunction bound
    let (trees, rest) ← chain "OR" (conjunction inner (bound + 1)) (bound + 1) tokens
    some (joined .or trees, rest)

/-- The tokens with a value in the place of every question mark, if there are as many. -/
def supplied : List Token → List Param → Option (List Token)
  | [], params => if params = [] then some [] else none
  | token :: rest, params =>
    if token = .mark '?' then
      match params with
      | [] => none
      | param :: params => (supplied rest params).map (.value param :: ·)
    else (supplied rest params).map (token :: ·)

/-- The condition that a statement is, if all of its text and all of its values are used. A text of
`n` tokens has fewer than `n + 1` parentheses inside each other and members in a chain. -/
def read? (statement : Statement) : Option BoolTree := do
  let tokens ← supplied (← tokens? statement.sql.toList) statement.params
  match ← disjunction (tokens.length + 1) tokens with
  | (tree, []) => some tree
  | _ => none

example : read? ⟨"NOT \"t\".\"a\" = ? AND (\"t\".\"b\" IS NULL OR 1) OR 2", [.bool true]⟩ = some
    (.or [.and [.not (.compare "=" (.column ⟨"t", "a"⟩) (.value (.bool true))),
      .or [.isNull (.column ⟨"t", "b"⟩), .number "1"]], .number "2"]) := by
  rfl

end BoolTree

end NestedSql.Sql
