import NestedSql.Failure
import NestedSql.Wire.Fault

/-!
# Why a plan has no row set

A statement can fail in the engine, or return something other than the document its plan promises.
A plan can also find its pool closed or lose the task that runs it.
-/

namespace NestedSql

/-- The first reason against a row set. -/
inductive ExecutionError where
  | rejected (message : String)
  | noRow
  | undecodable (fault : Wire.Fault)
  | nullDocument
  | aggregatesNotObject (document : Json)
  | taskLost (cause : String)
  | poolClosed

namespace ExecutionError

/-- The kinds of reasons. -/
inductive Kind where
  | database
  | decode
  | typeMismatch
  | task
  | poolClosed
deriving DecidableEq, Repr

def kind : ExecutionError → Kind
  | rejected _ | noRow => .database
  | undecodable _ => .decode
  | nullDocument | aggregatesNotObject _ => .typeMismatch
  | taskLost _ => .task
  | poolClosed => .poolClosed

/-- What went wrong; nothing is to be said of a closed pool. -/
def detail : ExecutionError → String
  | rejected message => message
  | noRow => "Query returned no rows"
  | undecodable .malformed => "malformed document"
  | undecodable (.mismatch cause) => cause.message
  | nullDocument => "statement returned NULL"
  | aggregatesNotObject document => "aggregates result is not an object: " ++ document.text
  | taskLost cause => cause
  | poolClosed => ""

/-- A detail with its kind in front. -/
def Kind.message (kind : Kind) (detail : String) : String :=
  match kind with
  | database => "Database error: " ++ detail
  | decode => "Failed to decode result: " ++ detail
  | typeMismatch => "Type mismatch: " ++ detail
  | task => "Worker task failed: " ++ detail
  | poolClosed => "Connection pool is closed"

def message (error : ExecutionError) : String := error.kind.message error.detail

/-- A document of another shape is told from a failure to get one. -/
def Kind.reason : Kind → Reason
  | decode | typeMismatch => .typeMismatch
  | database | task | poolClosed => .executionError

/-- The failure that stands for a reason of this kind. -/
def Kind.failure (kind : Kind) (detail : String) : Failure := ⟨kind.reason, kind.message detail⟩

def failure (error : ExecutionError) : Failure := error.kind.failure error.detail

end ExecutionError

end NestedSql
