import NestedSql.Execute.Batch
import NestedSql.Proofs.Pool.Steps

/-!
# Moves around a batch

What can happen around a batch: its own events, runs that break off, and what others do with the
pool. A move comes to one of a few things, each of which moves one plan or drops those that nobody
asks any more; whatever else is shown about moves is shown for these.
-/

namespace NestedSql

/-- The same step of another client. -/
def PoolStep.map {Client Other : Type} (rename : Client → Other) :
    PoolStep Client → PoolStep Other
  | .acquire client => .acquire (rename client)
  | .poll client => .poll (rename client)
  | .release client => .release (rename client)
  | .close => .close

theorem PoolStep.client?_map {Client Other : Type} {rename : Client → Other}
    {step : PoolStep Client} : (step.map rename).client? = step.client?.map rename := by
  cases step <;> rfl

namespace Stage

/-- The permits that a plan holds at a stage. -/
def holds : Stage → Nat
  | .running => 1
  | _ => 0

/-- The permits that a plan wants at a stage. -/
def wants : Stage → Nat
  | .waiting => 1
  | _ => 0

/-- How a plan asks for a permit at a stage. -/
def step? (position : Nat) : Stage → Option (PoolStep Nat)
  | .queued => some (.acquire position)
  | .waiting => some (.poll position)
  | _ => none

/-- Where a plan stands when nobody asks for its result any more. -/
def halted : Stage → Stage
  | .running => .running
  | _ => .dropped

/-- Where an answer of the pool leaves a plan that it has not refused. -/
def ofAnswer? : PoolAnswer → Option Stage
  | .held => some .running
  | .pending => some .waiting
  | _ => none

theorem holds_halted (stage : Stage) : stage.halted.holds = stage.holds := by
  cases stage <;> rfl

theorem wants_halted (stage : Stage) : stage.halted.wants = 0 := by
  cases stage <;> rfl

theorem client?_of_step? {position : Nat} {stage : Stage} {step : PoolStep Nat}
    (h : stage.step? position = some step) : step.client? = some position := by
  cases stage with
  | queued | waiting =>
    obtain rfl := Option.some.inj h
    rfl
  | running | ended | collected | dropped => cases h

theorem ofAnswer?_eq_some {answer : PoolAnswer} {stage : Stage} :
    ofAnswer? answer = some stage ↔
      answer = .held ∧ stage = .running ∨ answer = .pending ∧ stage = .waiting := by
  cases answer <;> simp [ofAnswer?, eq_comm]

theorem stands_of_ofAnswer? {answer : PoolAnswer} {stage : Stage}
    (h : ofAnswer? answer = some stage) :
    answer.holds = stage.holds ∧ answer.wants = stage.wants := by
  rcases ofAnswer?_eq_some.mp h with ⟨rfl, rfl⟩ | ⟨rfl, rfl⟩ <;> exact ⟨rfl, rfl⟩

theorem stands_of_ofAnswer?_eq_none {answer : PoolAnswer} (h : ofAnswer? answer = none) :
    answer.holds = 0 ∧ answer.wants = 0 := by
  cases answer with
  | held | pending => cases h
  | refused | absent | released | cancelled | closed => exact ⟨rfl, rfl⟩

end Stage

namespace Batch

/-- What can happen around a batch. A run breaks off when its connection cannot be opened or its
worker is lost. The clients of others are numbered from the last plan on. -/
inductive Move where
  | own (event : BatchEvent)
  | lost (position : Nat) (error : ExecutionError)
  | other (step : PoolStep Nat)

/-- A plan takes a step with the pool and stands at a later stage. -/
def advance (batch : Batch) (position : Nat) (step : PoolStep Nat) (later : Stage) : Batch :=
  { batch with pool := (batch.pool.step step).1 }.setStage position later

/-- A run breaks off, and its permit comes back. -/
def lose (batch : Batch) (position : Nat) (error : ExecutionError) : Batch :=
  match batch.tasks[position]? with
  | some (_, .running) => batch.advance position (.release position) (.ended (.error error))
  | _ => batch

/-- Others take a step with the pool. -/
def share (batch : Batch) (step : PoolStep Nat) : Batch :=
  { batch with pool := (batch.pool.step (step.map (batch.tasks.length + ·))).1 }

def move (batch : Batch) : Move → Batch
  | .own event => batch.step event
  | .lost position error => batch.lose position error
  | .other step => batch.share step

/-- The batch after some moves. -/
def along (batch : Batch) (moves : List Move) : Batch := moves.foldl move batch

def plans (batch : Batch) : List Plan := batch.tasks.map Prod.fst

/-- The stage of the plan at a position. -/
def stage? (batch : Batch) (position : Nat) : Option Stage :=
  batch.tasks[position]?.map Prod.snd

section Stages

variable {batch : Batch} {position other : Nat} {stage later : Stage} {step : PoolStep Nat}
  {interest : Interest}

theorem stage?_eq_some : batch.stage? position = some stage ↔
    ∃ plan, batch.tasks[position]? = some (plan, stage) := by
  rw [stage?, Option.map_eq_some_iff]
  exact ⟨fun ⟨⟨plan, _⟩, htask, hstage⟩ => ⟨plan, hstage ▸ htask⟩,
    fun ⟨plan, htask⟩ => ⟨_, htask, rfl⟩⟩

theorem getElem?_tasks {plan : Plan} : batch.tasks[position]? = some (plan, stage) ↔
    batch.plans[position]? = some plan ∧ batch.stage? position = some stage := by
  rw [plans, stage?, List.getElem?_map]
  cases batch.tasks[position]? with
  | none => simp
  | some task => exact ⟨fun htask => by simp [Option.some.inj htask], fun ⟨hplan, hstage⟩ =>
      congrArg some (Prod.ext (Option.some.inj hplan) (Option.some.inj hstage))⟩

theorem lt_of_stage? (h : batch.stage? position = some stage) : position < batch.tasks.length := by
  obtain ⟨plan, htask⟩ := stage?_eq_some.mp h
  exact (List.getElem?_eq_some_iff.mp htask).1

theorem exists_stage (h : position < batch.tasks.length) :
    ∃ stage, batch.stage? position = some stage :=
  ⟨batch.tasks[position].2, by rw [stage?, List.getElem?_eq_getElem h]; rfl⟩

theorem getElem?_setStage : (batch.setStage position later).tasks[other]? =
    batch.tasks[other]?.map fun task => if position = other then (task.1, later) else task := by
  rw [setStage, List.getElem?_modify]
  rfl

@[simp] theorem stage?_setStage : (batch.setStage position later).stage? other =
    if position = other then (batch.stage? other).map fun _ => later else batch.stage? other := by
  rw [stage?, getElem?_setStage, stage?]
  split <;> simp [Function.comp_def]

@[simp] theorem plans_setStage : (batch.setStage position later).plans = batch.plans := by
  refine List.ext_getElem? fun other => ?_
  rw [plans, plans, List.getElem?_map, getElem?_setStage, List.getElem?_map, Option.map_map]
  refine congrArg (Option.map · _) (funext fun task => ?_)
  simp only [Function.comp_apply]
  split <;> rfl

@[simp] theorem stage?_advance : (batch.advance position step later).stage? other =
    if position = other then (batch.stage? other).map fun _ => later else batch.stage? other :=
  stage?_setStage

@[simp] theorem plans_advance : (batch.advance position step later).plans = batch.plans :=
  plans_setStage

/-- A plan stands where it has been moved to, and all others where they stood. -/
theorem of_stage?_setStage (h : (batch.setStage position later).stage? other = some stage) :
    position = other ∧ stage = later ∨ position ≠ other ∧ batch.stage? other = some stage := by
  rw [stage?_setStage] at h
  split at h
  case isTrue hsame =>
    obtain ⟨-, -, heq⟩ := Option.map_eq_some_iff.mp h
    exact .inl ⟨hsame, heq.symm⟩
  case isFalse hother => exact .inr ⟨hother, h⟩

theorem of_stage?_advance (h : (batch.advance position step later).stage? other = some stage) :
    position = other ∧ stage = later ∨ position ≠ other ∧ batch.stage? other = some stage :=
  of_stage?_setStage h

theorem length_tasks : batch.tasks.length = batch.plans.length := (List.length_map _).symm

/-! ## Plans that are dropped -/

/-- The positions of the plans that wait. -/
def waitingFrom (position : Nat) : List (Plan × Stage) → List Nat
  | [] => []
  | (_, .waiting) :: tasks => position :: waitingFrom (position + 1) tasks
  | _ :: tasks => waitingFrom (position + 1) tasks

theorem dropTasks_eq (pool : Pool Nat) (position : Nat) (tasks : List (Plan × Stage)) :
    dropTasks pool position tasks = (pool.after ((waitingFrom position tasks).map .release),
      tasks.map fun task => (task.1, task.2.halted)) := by
  induction tasks generalizing pool position with
  | nil => rfl
  | cons task tasks ih =>
    obtain ⟨plan, stage⟩ := task
    cases stage <;> simp only [dropTasks, dropTask, ih] <;> rfl

theorem mem_waitingFrom {first : Nat} {tasks : List (Plan × Stage)} :
    position ∈ waitingFrom first tasks ↔
      ∃ index, tasks[index]?.map Prod.snd = some .waiting ∧ position = first + index := by
  induction tasks generalizing first with
  | nil => simp [waitingFrom]
  | cons task tasks ih =>
    obtain ⟨plan, stage⟩ := task
    have hcases : (∃ index, ((plan, stage) :: tasks)[index]?.map Prod.snd = some .waiting ∧
          position = first + index) ↔ stage = .waiting ∧ position = first ∨
        ∃ index, tasks[index]?.map Prod.snd = some .waiting ∧ position = first + 1 + index := by
      constructor
      · rintro ⟨_ | index, hstage, rfl⟩
        · exact .inl ⟨Option.some.inj hstage, rfl⟩
        · exact .inr ⟨index, hstage, by omega⟩
      · rintro (⟨rfl, rfl⟩ | ⟨index, hstage, rfl⟩)
        · exact ⟨0, rfl, rfl⟩
        · exact ⟨index + 1, hstage, by omega⟩
    rw [hcases, ← ih]
    cases stage <;> simp [waitingFrom]

/-- The plans of a batch that wait. -/
def waiting (batch : Batch) : List Nat := waitingFrom 0 batch.tasks

theorem mem_waiting : position ∈ batch.waiting ↔ batch.stage? position = some .waiting := by
  rw [waiting, mem_waitingFrom]
  constructor
  · rintro ⟨index, hstage, rfl⟩
    rw [Nat.zero_add]
    exact hstage
  · exact fun hstage => ⟨position, hstage, (Nat.zero_add position).symm⟩

/-- Plans that wait leave the pool, and all but those that run are dropped. -/
theorem halt_eq : batch.halt interest =
    { batch with
      pool := batch.pool.after (batch.waiting.map .release)
      tasks := batch.tasks.map fun task => (task.1, task.2.halted)
      interest := interest } := by
  unfold halt
  rw [dropTasks_eq]
  rfl

@[simp] theorem stage?_halt :
    (batch.halt interest).stage? position = (batch.stage? position).map Stage.halted := by
  rw [halt_eq, stage?, stage?, List.getElem?_map, Option.map_map, Option.map_map]
  rfl

@[simp] theorem plans_halt : (batch.halt interest).plans = batch.plans := by
  rw [halt_eq, plans, List.map_map]
  rfl

end Stages

/-! ## What a move comes to -/

/-- What a move comes to, with the batch after it. -/
inductive Turn (batch : Batch) : Move → Batch → Prop where
  | idle {move} : Turn batch move batch
  | asked {position stage step later} (active : batch.interest = .active)
      (stands : batch.stage? position = some stage) (asks : stage.step? position = some step)
      (told : Stage.ofAnswer? (batch.pool.step step).2 = some later) :
      Turn batch (.own (.poll position)) (batch.advance position step later)
  | refused {position stage step} (active : batch.interest = .active)
      (stands : batch.stage? position = some stage) (asks : stage.step? position = some step)
      (told : Stage.ofAnswer? (batch.pool.step step).2 = none) :
      Turn batch (.own (.poll position))
        ((batch.advance position step .dropped).halt (.failed .poolClosed))
  | collected {position rowSet} (active : batch.interest = .active)
      (stands : batch.stage? position = some (.ended (.ok rowSet))) :
      Turn batch (.own (.poll position)) (batch.setStage position (.collected rowSet))
  | failed {position error} (active : batch.interest = .active)
      (stands : batch.stage? position = some (.ended (.error error))) :
      Turn batch (.own (.poll position)) (batch.halt (.failed error))
  | ended {move position plan result} (runs : batch.tasks[position]? = some (plan, .running))
      (yields : move = .own (.finish position) ∧ result = plan.run batch.engine ∨
        ∃ error, move = .lost position error ∧ result = .error error) :
      Turn batch move (batch.advance position (.release position) (.ended result))
  | abandoned (active : batch.interest = .active) :
      Turn batch (.own .abandon) (batch.halt .abandoned)
  | shared {step} : Turn batch (.other step) (batch.share step)

section Moves

variable {batch next : Batch} {position : Nat} {stage later : Stage} {step : PoolStep Nat}
  {move : Move}

theorem granted_eq {answer : Pool Nat × PoolAnswer} : batch.granted position answer =
    match Stage.ofAnswer? answer.2 with
    | some later => { batch with pool := answer.1 }.setStage position later
    | none => ({ batch with pool := answer.1 }.setStage position .dropped).halt
        (.failed .poolClosed) := by
  obtain ⟨pool, answer⟩ := answer
  cases answer <;> rfl

/-- A plan that wants a permit asks the pool. -/
theorem poll_eq_granted (hactive : batch.interest = .active)
    (hstage : batch.stage? position = some stage) (hasks : stage.step? position = some step) :
    batch.poll position = batch.granted position (batch.pool.step step) := by
  obtain ⟨plan, htask⟩ := stage?_eq_some.mp hstage
  unfold poll
  rw [hactive, htask]
  cases stage with
  | queued | waiting =>
    obtain rfl := Option.some.inj hasks
    rfl
  | running | ended | collected | dropped => cases hasks

theorem poll_eq_advance (hactive : batch.interest = .active)
    (hstage : batch.stage? position = some stage) (hasks : stage.step? position = some step)
    (htold : Stage.ofAnswer? (batch.pool.step step).2 = some later) :
    batch.poll position = batch.advance position step later := by
  rw [poll_eq_granted hactive hstage hasks, granted_eq, htold]
  rfl

theorem poll_of_ended (hactive : batch.interest = .active) {result : Except ExecutionError RowSet}
    (hstage : batch.stage? position = some (.ended result)) : batch.poll position =
      match result with
      | .ok rowSet => batch.setStage position (.collected rowSet)
      | .error error => batch.halt (.failed error) := by
  obtain ⟨plan, htask⟩ := stage?_eq_some.mp hstage
  unfold poll
  rw [hactive, htask]
  cases result <;> rfl

theorem finish_eq_advance {plan : Plan} (hruns : batch.tasks[position]? = some (plan, .running)) :
    batch.finish position =
      batch.advance position (.release position) (.ended (plan.run batch.engine)) := by
  unfold finish
  rw [hruns]
  rfl

theorem turn_poll (position : Nat) : Turn batch (.own (.poll position)) (batch.poll position) := by
  cases hinterest : batch.interest with
  | failed | abandoned =>
    unfold poll
    rw [hinterest]
    exact .idle
  | active =>
    cases hstage : batch.stage? position with
    | none =>
      unfold poll
      rw [hinterest, Option.map_eq_none_iff.mp hstage]
      exact .idle
    | some stage =>
      cases hasks : stage.step? position with
      | some step =>
        rw [poll_eq_granted hinterest hstage hasks, granted_eq]
        split
        · next htold => exact .asked hinterest hstage hasks htold
        · next htold => exact .refused hinterest hstage hasks htold
      | none =>
        obtain ⟨plan, htask⟩ := stage?_eq_some.mp hstage
        cases stage with
        | queued | waiting => cases hasks
        | running | collected | dropped =>
          unfold poll
          rw [hinterest, htask]
          exact .idle
        | ended result =>
          rw [poll_of_ended hinterest hstage]
          cases result with
          | ok => exact .collected hinterest hstage
          | error => exact .failed hinterest hstage

theorem turn_finish (position : Nat) :
    Turn batch (.own (.finish position)) (batch.finish position) := by
  unfold finish
  split
  · next hruns => exact .ended hruns (.inl ⟨rfl, rfl⟩)
  · exact .idle

theorem turn_abandon : Turn batch (.own .abandon) batch.abandon := by
  unfold abandon
  split
  · next hactive => exact .abandoned hactive
  · exact .idle

theorem turn_lose (position : Nat) (error : ExecutionError) :
    Turn batch (.lost position error) (batch.lose position error) := by
  unfold lose
  split
  · next hruns => exact .ended hruns (.inr ⟨error, rfl, rfl⟩)
  · exact .idle

theorem turn (move : Move) : Turn batch move (batch.move move) := by
  cases move with
  | own event =>
    cases event with
    | poll position => exact turn_poll position
    | finish position => exact turn_finish position
    | abandon => exact turn_abandon
  | lost position error => exact turn_lose position error
  | other step => exact .shared

theorem Turn.plans_eq (h : Turn batch move next) : next.plans = batch.plans := by
  cases h <;> first | rfl | simp

theorem Turn.engine_eq (h : Turn batch move next) : next.engine = batch.engine := by
  cases h <;> rfl

/-! ## Interest in the answer -/

theorem Turn.active (hturn : Turn batch move next) (hactive : next.interest = .active) :
    batch.interest = .active := by
  cases hturn with
  | idle | asked | collected | ended | shared => exact hactive
  | refused | failed | abandoned => cases hactive

theorem Turn.not_abandoned (hturn : Turn batch move next) (hmove : move ≠ .own .abandon)
    (h : batch.interest ≠ .abandoned) : next.interest ≠ .abandoned := by
  cases hturn with
  | idle | asked | collected | ended | shared => exact h
  | refused | failed => exact nofun
  | abandoned => exact absurd rfl hmove

theorem plans_along (moves : List Move) : (batch.along moves).plans = batch.plans := by
  induction moves generalizing batch with
  | nil => rfl
  | cons move moves ih => exact (@ih (batch.move move)).trans (turn move).plans_eq

end Moves

end Batch

end NestedSql
