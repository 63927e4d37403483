import NestedSql.Compile.Plan
import NestedSql.Execute.Error
import NestedSql.Json.Parser
import NestedSql.Wire.Reader

/-!
# Row sets from statements

Each statement of a plan returns one cell that holds a document. The documents are read in the order
rows, aggregates, groups, and the first fault is the answer. A row set has exactly the parts that
its plan has statements for.
-/

namespace NestedSql

/-- What an engine returns for a statement whose result is one cell. -/
inductive Outcome where
  | rejected (message : String)
  | noRow
  | null
  | text (text : String)
deriving DecidableEq, Repr

/-- An engine answers every statement. -/
abbrev Engine := Statement → Outcome

/-- The document in a cell. -/
def Outcome.document : Outcome → Except ExecutionError Json
  | rejected message => throw (.rejected message)
  | noRow => throw .noRow
  | null => throw .nullDocument
  | text cell =>
    match Json.parse? cell with
    | some document => return document
    | none => throw (.undecodable .malformed)

/-- The value that a document stands for. -/
def decodeDocument (kind : Wire.Kind) (document : Json) : Except ExecutionError kind.Value :=
  match Wire.fromValue kind document.written with
  | .ok value => return value
  | .error fault => throw (.undecodable fault)

namespace RowSet

/-- The rows in a document. -/
def rowsOf (document : Json) : Except ExecutionError (List Row) := do
  let rows ← decodeDocument (.named .rowsDocument) document
  return rows.rows

/-- The aggregates in a document. -/
def aggregatesOf : Json → Except ExecutionError (Entries Json)
  | .object members => return members
  | document => throw (.aggregatesNotObject document)

/-- The groups in a document. -/
def groupsOf (document : Json) : Except ExecutionError (List Group) :=
  decodeDocument (.list (.named .group)) document

end RowSet

/-- The row set of a plan. -/
def Plan.run (engine : Engine) (plan : Plan) : Except ExecutionError RowSet := do
  let rows ← plan.rows.mapM fun statement => do RowSet.rowsOf (← (engine statement).document)
  let aggregates ← plan.aggregates.mapM fun statement => do
    RowSet.aggregatesOf (← (engine statement).document)
  let groups ← plan.groups.mapM fun statement => do
    RowSet.groupsOf (← (engine statement).document)
  return ⟨rows, aggregates, groups⟩

end NestedSql
