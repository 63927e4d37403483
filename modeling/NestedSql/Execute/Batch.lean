import NestedSql.Execute.RowSet
import NestedSql.Pool.Basic

/-!
# Batches of plans

The plans of a request run side by side, each on a permit of its own from one pool. Row sets come
back in the order of the plans, however the runs interleave. The first failure that is collected is
the answer of the whole batch: plans that still want a permit are dropped, and runs under way end
unheard and give their permits back.
-/

namespace NestedSql

/-- Where a plan of a batch stands. -/
inductive Stage where
  | queued
  | waiting
  | running
  | ended (result : Except ExecutionError RowSet)
  | collected (rowSet : RowSet)
  | dropped

/-- Whether anybody still wants the answer. -/
inductive Interest where
  | active
  | failed (error : ExecutionError)
  | abandoned

/-- Plans in order with their stages; a plan is known to the pool by its position. -/
structure Batch where
  engine : Engine
  pool : Pool Nat
  tasks : List (Plan × Stage)
  interest : Interest

/-- What can happen next: a plan is asked for its result, a run ends, or the caller gives up. -/
inductive BatchEvent where
  | poll (position : Nat)
  | finish (position : Nat)
  | abandon
deriving DecidableEq, Repr

namespace Batch

/-- A batch before its first step. -/
def ofPlans (engine : Engine) (pool : Pool Nat) (plans : List Plan) : Batch :=
  ⟨engine, pool, plans.map fun plan => (plan, .queued), .active⟩

def setStage (batch : Batch) (position : Nat) (stage : Stage) : Batch :=
  { batch with tasks := batch.tasks.modify position fun task => (task.1, stage) }

/-- Drops one plan unless its statements are running. -/
def dropTask (pool : Pool Nat) (position : Nat) (stage : Stage) : Pool Nat × Stage :=
  match stage with
  | .waiting => ((pool.release position).1, .dropped)
  | .running => (pool, .running)
  | _ => (pool, .dropped)

/-- Drops the plans from a position on. -/
def dropTasks (pool : Pool Nat) (position : Nat) :
    List (Plan × Stage) → Pool Nat × List (Plan × Stage)
  | [] => (pool, [])
  | (plan, stage) :: tasks =>
    let (pool, stage) := dropTask pool position stage
    let (pool, tasks) := dropTasks pool (position + 1) tasks
    (pool, (plan, stage) :: tasks)

/-- Nobody waits for the plans any more. -/
def halt (batch : Batch) (interest : Interest) : Batch :=
  let (pool, tasks) := dropTasks batch.pool 0 batch.tasks
  { batch with pool := pool, tasks := tasks, interest := interest }

/-- What a plan that wants a permit was told. -/
def granted (batch : Batch) (position : Nat) (answer : Pool Nat × PoolAnswer) : Batch :=
  let batch := { batch with pool := answer.1 }
  match answer.2 with
  | .held => batch.setStage position .running
  | .pending => batch.setStage position .waiting
  | _ => (batch.setStage position .dropped).halt (.failed .poolClosed)

/-- A plan is asked for its result. -/
def poll (batch : Batch) (position : Nat) : Batch :=
  match batch.interest, batch.tasks[position]? with
  | .active, some (_, .queued) => batch.granted position (batch.pool.acquire position)
  | .active, some (_, .waiting) => batch.granted position (batch.pool.poll position)
  | .active, some (_, .ended (.ok rowSet)) => batch.setStage position (.collected rowSet)
  | .active, some (_, .ended (.error error)) => batch.halt (.failed error)
  | _, _ => batch

/-- The statements of a plan have run, and its permit comes back. -/
def finish (batch : Batch) (position : Nat) : Batch :=
  match batch.tasks[position]? with
  | some (plan, .running) =>
    { batch with pool := (batch.pool.release position).1 }.setStage position
      (.ended (plan.run batch.engine))
  | _ => batch

/-- The caller gives up. -/
def abandon (batch : Batch) : Batch :=
  match batch.interest with
  | .active => batch.halt .abandoned
  | _ => batch

def step (batch : Batch) : BatchEvent → Batch
  | .poll position => batch.poll position
  | .finish position => batch.finish position
  | .abandon => batch.abandon

/-- The batch after some events. -/
def after (batch : Batch) (events : List BatchEvent) : Batch := events.foldl step batch

/-- The row sets, if all have been collected. -/
def collected? (tasks : List (Plan × Stage)) : Option (List RowSet) :=
  tasks.mapM fun task =>
    match task.2 with
    | .collected rowSet => some rowSet
    | _ => none

/-- The answer, once there is one. -/
def answer? (batch : Batch) : Option (Except ExecutionError (List RowSet)) :=
  match batch.interest with
  | .active => (collected? batch.tasks).map .ok
  | .failed error => some (.error error)
  | .abandoned => none

/-! ## A schedule -/

/-- Every plan is asked in turn, and then every run ends in turn. -/
def round (size : Nat) : List BatchEvent :=
  (List.range size).map .poll ++ (List.range size).map .finish

/-- As many rounds as plans, and one more to collect the last result. -/
def schedule (size : Nat) : List BatchEvent :=
  (List.range (size + 1)).flatMap fun _ => round size

/-- The answer of the schedule. A batch that nobody has given up has one by then. -/
def run (batch : Batch) : Except ExecutionError (List RowSet) :=
  ((batch.after (schedule batch.tasks.length)).answer?).getD (.error (.taskLost "abandoned"))

end Batch

end NestedSql
