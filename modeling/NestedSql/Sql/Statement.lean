import NestedSql.Sql.Name
import NestedSql.Sql.Param

/-!
# Statements

SQL text with the values of its placeholders in the order in which they stand. Statements are put
together by appending, which keeps text and values in step. Placeholders are the question marks
outside quoted text.
-/

namespace NestedSql

/-- SQL text and the values of its placeholders. -/
structure Statement where
  sql : String
  params : List Param
deriving DecidableEq

namespace Statement

/-- Text without placeholders. -/
def raw (sql : String) : Statement := ⟨sql, []⟩

def empty : Statement := raw ""

instance : Inhabited Statement := ⟨empty⟩

instance : Coe String Statement := ⟨raw⟩

def append (first second : Statement) : Statement :=
  ⟨first.sql ++ second.sql, first.params ++ second.params⟩

instance : Append Statement := ⟨append⟩

/-- A placeholder and its value. -/
def bind (param : Param) : Statement := ⟨"?", [param]⟩

/-- A placeholder that is cast to a type. -/
def bindCast (param : Param) (type : String) : Statement :=
  raw "CAST(" ++ bind param ++ raw " AS " ++ raw type ++ raw ")"

/-- The parts with a separator between each two. -/
def joined (separator : String) : List Statement → Statement
  | [] => empty
  | [part] => part
  | part :: parts => part ++ raw separator ++ joined separator parts

def parenthesized (inner : Statement) : Statement := raw "(" ++ inner ++ raw ")"

/-- Where a reader of SQL text stands: outside, or inside text that a quote opened. -/
abbrev Quotation := Option Char

/-- One character further. A doubled quote closes and opens again. -/
def Quotation.step (state : Quotation) (c : Char) : Quotation :=
  match state with
  | none => if c = '\'' ∨ c = '"' then some c else none
  | some quote => if c = quote then none else some quote

/-- The question marks outside quoted text. -/
def placeholders : Quotation → List Char → Nat
  | _, [] => 0
  | state, c :: rest =>
    (if state = none ∧ c = '?' then 1 else 0) + placeholders (Quotation.step state c) rest

/-- The number of placeholders in the text. -/
def placeholderCount (statement : Statement) : Nat := placeholders none statement.sql.toList

/-- The statement as a document. -/
def json (statement : Statement) : Json :=
  .object [("sql", .string statement.sql), ("params", .array (statement.params.map Param.json))]

@[simp] theorem sql_append (first second : Statement) :
    (first ++ second).sql = first.sql ++ second.sql := rfl

@[simp] theorem params_append (first second : Statement) :
    (first ++ second).params = first.params ++ second.params := rfl

@[simp] theorem params_raw (sql : String) : (raw sql).params = [] := rfl

theorem raw_append (first second : String) : raw (first ++ second) = raw first ++ raw second := rfl

@[simp] theorem params_bind (param : Param) : (bind param).params = [param] := rfl

@[simp] theorem params_parenthesized (inner : Statement) :
    inner.parenthesized.params = inner.params := by
  simp [parenthesized]

theorem params_joined (separator : String) (parts : List Statement) :
    (joined separator parts).params = parts.flatMap params := by
  fun_induction joined separator parts <;> simp_all [empty]

end Statement

end NestedSql
