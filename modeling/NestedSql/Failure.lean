import NestedSql.Compile.Error
import NestedSql.Wire.Writer

/-!
# Failures of requests

What a client is told when a request has no answer: a reason out of four, which fixes the status
code, and a message.
-/

namespace NestedSql

/-- The kinds of failures that clients can tell apart. -/
inductive Reason where
  | unsupportedFeature
  | configurationError
  | typeMismatch
  | executionError
deriving DecidableEq, Repr

namespace Reason

def text : Reason → String
  | unsupportedFeature => "unsupported_feature"
  | configurationError => "configuration_error"
  | typeMismatch => "type_mismatch"
  | executionError => "execution_error"

/-- The status code of a response with this reason. -/
def status : Reason → Nat
  | unsupportedFeature => 501
  | configurationError => 400
  | typeMismatch | executionError => 500

end Reason

/-- Why a request has no answer. -/
structure Failure where
  reason : Reason
  message : String
deriving DecidableEq, Repr

/-- The failure as a document. -/
def Failure.json (failure : Failure) : Json :=
  .object [("reason", .string failure.reason.text), ("message", .string failure.message)]

namespace CompileError

def Kind.reason : Kind → Reason
  | unsupported => .unsupportedFeature
  | configuration => .configurationError

/-- Clients are told what is missing, without its kind in front. -/
def failure (error : CompileError) : Failure := ⟨error.kind.reason, error.detail⟩

end CompileError

end NestedSql
