import NestedSql.Execute.Batch

/-!
# Answering requests

A service has a schema, an engine and a pool. It compiles the plans of a request for all sets of
variables before any of them runs, so that a request that does not compile takes no permit.
-/

namespace NestedSql

/-- What requests are answered with. -/
structure Service where
  schema : Schema
  engine : Engine
  pool : Pool Nat

namespace Service

/-- The plans of a request. -/
def plans (service : Service) (request : Request) : Except Failure (List Plan) :=
  match request.plans service.schema with
  | .ok plans => return plans
  | .error error => throw error.failure

/-- The row sets of a request, one for each set of variables. -/
def answer (service : Service) (request : Request) : Except Failure (List RowSet) := do
  let plans ← service.plans request
  match (Batch.ofPlans service.engine service.pool plans).run with
  | .ok rowSets => return rowSets
  | .error error => throw error.failure

end Service

end NestedSql
