import NestedSql.Proofs.Batches.Standing

/-!
# Results of batches

What a batch shows for a plan is what the plan's own run gives, in whatever order runs start and
end. An answer has the row sets of all plans in their order, or it is a failure that some plan has
raised: by its statements, by a run that broke off, or because the pool was closed.
-/

namespace NestedSql

/-- What a stage shows for a plan's result is one that its run may have. -/
def Stage.Faithful (yields : Except ExecutionError RowSet → Prop) : Stage → Prop
  | .ended result => yields result
  | .collected rowSet => yields (.ok rowSet)
  | _ => True

/-- The answer is settled, and plans at this stage are not asked any more. -/
def Stage.Unheard : Stage → Prop
  | .running | .ended _ | .dropped => True
  | _ => False

theorem Stage.faithful_halted {yields : Except ExecutionError RowSet → Prop} (stage : Stage) :
    stage.halted.Faithful yields := by
  cases stage <;> trivial

theorem Stage.unheard_halted (stage : Stage) : stage.halted.Unheard := by
  cases stage <;> trivial

namespace Batch

/-- What the run of a plan may end with: what its statements give, or the fault by which it broke
off. -/
def Yields (engine : Engine) (moves : List Move) (position : Nat) (plan : Plan)
    (result : Except ExecutionError RowSet) : Prop :=
  result = plan.run engine ∨ ∃ error, .lost position error ∈ moves ∧ result = .error error

/-- One of the plans has raised a failure. -/
inductive Raised (plans : List Plan) (engine : Engine) (moves : List Move) :
    ExecutionError → Prop where
  | run {plan error} (mem : plan ∈ plans) (fails : plan.run engine = .error error) :
      Raised plans engine moves error
  | lost {position plan error} (stands : plans[position]? = some plan)
      (lost : .lost position error ∈ moves) : Raised plans engine moves error
  | refused {plan} (mem : plan ∈ plans) (closed : .other .close ∈ moves) :
      Raised plans engine moves .poolClosed

theorem Yields.raised {plans : List Plan} {engine : Engine} {moves : List Move} {position : Nat}
    {plan : Plan} {error : ExecutionError} (h : Yields engine moves position plan (.error error))
    (hplan : plans[position]? = some plan) : Raised plans engine moves error := by
  rcases h with hrun | ⟨fault, hlost, heq⟩
  · exact .run (List.mem_of_getElem? hplan) hrun.symm
  · obtain rfl := Except.error.inj heq
    exact .lost hplan hlost

/-- All that a batch shows comes from runs of its plans. -/
structure Faithful (plans : List Plan) (engine : Engine) (moves : List Move) (batch : Batch) :
    Prop where
  plans_eq : batch.plans = plans
  engine_eq : batch.engine = engine
  results : ∀ position plan stage, plans[position]? = some plan →
    batch.stage? position = some stage → stage.Faithful (Yields engine moves position plan)
  failure : ∀ error, batch.interest = .failed error → Raised plans engine moves error
  isOpen : batch.pool.isOpen = true ∨ .other .close ∈ moves

/-- Plans are dropped exactly when nobody asks any more. -/
structure Settled (batch : Batch) : Prop where
  heard : batch.interest = .active → ∀ position, batch.stage? position ≠ some .dropped
  unheard : batch.interest ≠ .active → ∀ position stage, batch.stage? position = some stage →
    stage.Unheard

section Moves

variable {plans : List Plan} {engine : Engine} {moves : List Move} {batch next : Batch}
  {move : Move} {position : Nat} {step : PoolStep Nat} {later : Stage}

/-- A plan that wants a permit is refused only after the pool has been closed. -/
theorem Faithful.raised_of_refused (h : Faithful plans engine moves batch) (hp : batch.Placed)
    {stage : Stage} (hstage : batch.stage? position = some stage)
    (hasks : stage.step? position = some step)
    (htold : Stage.ofAnswer? (batch.pool.step step).2 = none) :
    Raised plans engine moves .poolClosed := by
  have hclosed := h.isOpen.resolve_left fun hopen => hp.told_of_open hopen hstage hasks htold
  obtain ⟨plan, htask⟩ := stage?_eq_some.mp hstage
  have hplan := (getElem?_tasks.mp htask).1
  rw [h.plans_eq] at hplan
  exact .refused (List.mem_of_getElem? hplan) hclosed

theorem Turn.results (hturn : Turn batch move next) (hmem : move ∈ moves)
    (h : Faithful plans engine moves batch) {plan : Plan} {stage : Stage}
    (hplan : plans[position]? = some plan) (hstage : next.stage? position = some stage) :
    stage.Faithful (Yields engine moves position plan) := by
  have hkept := h.results position plan
  cases hturn with
  | idle | shared => exact hkept stage hplan hstage
  | asked _ _ _ htold =>
    rcases of_stage?_advance hstage with ⟨-, rfl⟩ | ⟨-, hstood⟩
    · rcases Stage.ofAnswer?_eq_some.mp htold with ⟨-, rfl⟩ | ⟨-, rfl⟩ <;> trivial
    · exact hkept stage hplan hstood
  | refused | failed | abandoned =>
    rw [stage?_halt] at hstage
    obtain ⟨before, -, rfl⟩ := Option.map_eq_some_iff.mp hstage
    exact before.faithful_halted
  | collected _ hended =>
    rcases of_stage?_setStage hstage with ⟨rfl, rfl⟩ | ⟨-, hstood⟩
    · exact hkept (.ended (.ok _)) hplan hended
    · exact hkept stage hplan hstood
  | ended hruns hyields =>
    rcases of_stage?_advance hstage with ⟨rfl, rfl⟩ | ⟨-, hstood⟩
    · obtain ⟨hrunner, -⟩ := getElem?_tasks.mp hruns
      rw [h.plans_eq] at hrunner
      obtain rfl := Option.some.inj (hplan.symm.trans hrunner)
      rcases hyields with ⟨-, rfl⟩ | ⟨error, rfl, rfl⟩
      · exact .inl (by rw [h.engine_eq])
      · exact .inr ⟨error, hmem, rfl⟩
    · exact hkept stage hplan hstood

theorem Turn.failure (hturn : Turn batch move next) (hp : batch.Placed)
    (h : Faithful plans engine moves batch) (error : ExecutionError)
    (hfailed : next.interest = .failed error) : Raised plans engine moves error := by
  cases hturn with
  | idle | asked | collected | ended | shared => exact h.failure error hfailed
  | refused _ hstage hasks htold =>
    obtain rfl := Interest.failed.inj hfailed
    exact h.raised_of_refused hp hstage hasks htold
  | failed _ hended =>
    obtain rfl := Interest.failed.inj hfailed
    obtain ⟨plan, htask⟩ := stage?_eq_some.mp hended
    have hplan := (getElem?_tasks.mp htask).1
    rw [h.plans_eq] at hplan
    exact Yields.raised (h.results _ plan (.ended (.error _)) hplan hended) hplan
  | abandoned => cases hfailed

theorem Turn.faithful (hturn : Turn batch move next) (hmem : move ∈ moves) (hp : batch.Placed)
    (h : Faithful plans engine moves batch) : Faithful plans engine moves next where
  plans_eq := hturn.plans_eq.trans h.plans_eq
  engine_eq := hturn.engine_eq.trans h.engine_eq
  results _ _ _ := hturn.results hmem h
  failure := hturn.failure hp h
  isOpen := by
    by_cases hclose : move = .other .close
    · exact .inr (hclose ▸ hmem)
    · rw [hturn.isOpen_eq hp hclose]
      exact h.isOpen

theorem Turn.settled (hturn : Turn batch move next) (h : batch.Settled) : next.Settled := by
  refine ⟨fun hactive other hdropped => ?_, fun hinactive other stage hstage => ?_⟩
  · have hstill := h.heard (hturn.active hactive) other
    cases hturn with
    | idle | shared => exact hstill hdropped
    | asked _ _ _ htold =>
      rcases of_stage?_advance hdropped with ⟨-, rfl⟩ | ⟨-, hstood⟩
      · rcases Stage.ofAnswer?_eq_some.mp htold with ⟨-, hlater⟩ | ⟨-, hlater⟩ <;> cases hlater
      · exact hstill hstood
    | collected =>
      rcases of_stage?_setStage hdropped with ⟨-, heq⟩ | ⟨-, hstood⟩
      · cases heq
      · exact hstill hstood
    | ended =>
      rcases of_stage?_advance hdropped with ⟨-, heq⟩ | ⟨-, hstood⟩
      · cases heq
      · exact hstill hstood
    | refused | failed | abandoned => cases hactive
  · cases hturn with
    | idle | shared => exact h.unheard hinactive other stage hstage
    | asked hactive | collected hactive => exact absurd hactive hinactive
    | ended =>
      rcases of_stage?_advance hstage with ⟨-, rfl⟩ | ⟨-, hstood⟩
      · trivial
      · exact h.unheard hinactive other stage hstood
    | refused | failed | abandoned =>
      rw [stage?_halt] at hstage
      obtain ⟨before, -, rfl⟩ := Option.map_eq_some_iff.mp hstage
      exact before.unheard_halted

theorem settled_along (h : batch.Settled) (moves : List Move) : (batch.along moves).Settled := by
  induction moves generalizing batch with
  | nil => exact h
  | cons move moves ih => exact ih ((turn move).settled h)

theorem faithful_along (hp : batch.Placed) (h : Faithful plans engine moves batch)
    {made : List Move} (hmade : ∀ move ∈ made, move ∈ moves) :
    Faithful plans engine moves (batch.along made) := by
  induction made generalizing batch with
  | nil => exact h
  | cons first others ih =>
    obtain ⟨hfirst, hothers⟩ := List.forall_mem_cons.mp hmade
    exact ih ((turn first).placed hp) ((turn first).faithful hfirst hp h) hothers

theorem settled_ofPlans {size : Nat} : (ofPlans engine (.ofSize size) plans).Settled := by
  refine ⟨fun _ position hdropped => ?_, fun hinactive => absurd rfl hinactive⟩
  cases stage?_ofPlans hdropped

theorem faithful_ofPlans {size : Nat} :
    Faithful plans engine moves (ofPlans engine (.ofSize size) plans) where
  plans_eq := plans_ofPlans
  engine_eq := rfl
  results position plan stage _ hstage := by
    obtain rfl := stage?_ofPlans hstage
    trivial
  failure _ hfailed := nomatch hfailed
  isOpen := .inl rfl

end Moves

/-! ## Answers -/

section Answers

variable {plans : List Plan} {engine : Engine} {moves : List Move} {batch next : Batch}
  {move : Move} {position : Nat} {stage : Stage}

theorem collected?_cons {plan : Plan} {stage : Stage} {tasks : List (Plan × Stage)} :
    collected? ((plan, stage) :: tasks) =
      match stage with
      | .collected rowSet => (collected? tasks).map (rowSet :: ·)
      | _ => none := by
  rw [collected?, List.mapM_cons]
  cases stage with
  | collected =>
    change (collected? tasks).bind _ = (collected? tasks).map _
    cases collected? tasks <;> rfl
  | queued | waiting | running | ended | dropped => rfl

theorem stages_of_collected? {tasks : List (Plan × Stage)} {rowSets : List RowSet}
    (h : collected? tasks = some rowSets) : tasks.map Prod.snd = rowSets.map .collected := by
  induction tasks generalizing rowSets with
  | nil =>
    obtain rfl := Option.some.inj h
    rfl
  | cons task tasks ih =>
    obtain ⟨plan, stage⟩ := task
    rw [collected?_cons] at h
    cases stage with
    | collected rowSet =>
      obtain ⟨others, hothers, rfl⟩ := Option.map_eq_some_iff.mp h
      rw [List.map_cons, ih hothers, List.map_cons]
    | queued | waiting | running | ended | dropped => cases h

theorem collected?_eq_none {tasks : List (Plan × Stage)} : collected? tasks = none ↔
    ∃ task ∈ tasks, ∀ rowSet, task.2 ≠ .collected rowSet := by
  induction tasks with
  | nil => simp [collected?]
  | cons task tasks ih =>
    obtain ⟨plan, stage⟩ := task
    rw [collected?_cons]
    cases stage with
    | collected => simp [ih]
    | queued | waiting | running | ended | dropped => simp

/-- While somebody waits for the answer there is a plan whose result has not been collected. -/
theorem answer?_eq_none (hactive : batch.interest = .active) : batch.answer? = none ↔
    ∃ position stage, batch.stage? position = some stage ∧
      ∀ rowSet, stage ≠ .collected rowSet := by
  rw [answer?, hactive, Option.map_eq_none_iff, collected?_eq_none]
  constructor
  · rintro ⟨task, hmem, hother⟩
    obtain ⟨position, htask⟩ := List.mem_iff_getElem?.mp hmem
    exact ⟨position, task.2, (getElem?_tasks.mp htask).2, hother⟩
  · rintro ⟨position, stage, hstage, hother⟩
    obtain ⟨plan, htask⟩ := stage?_eq_some.mp hstage
    exact ⟨(plan, stage), List.mem_of_getElem? htask, hother⟩

theorem answer?_of_failed {error : ExecutionError} (h : batch.interest = .failed error) :
    batch.answer? = some (.error error) := by
  rw [answer?, h]

/-- An answer is final, unless the caller gives up before it is heard. -/
theorem Turn.answer?_eq (hturn : Turn batch move next) (hmove : move ≠ .own .abandon)
    {answer : Except ExecutionError (List RowSet)} (hanswer : batch.answer? = some answer) :
    next.answer? = some answer := by
  have hcollected : ∀ {position : Nat} {stage : Stage}, batch.interest = .active →
      batch.stage? position = some stage → ∃ rowSet, stage = .collected rowSet := by
    intro position stage hactive hstage
    refine Classical.byContradiction fun hother => ?_
    rw [(answer?_eq_none hactive).mpr
      ⟨position, stage, hstage, fun rowSet heq => hother ⟨rowSet, heq⟩⟩] at hanswer
    cases hanswer
  cases hturn with
  | idle | shared => exact hanswer
  | asked hactive hstage hasks | refused hactive hstage hasks =>
    obtain ⟨rowSet, rfl⟩ := hcollected hactive hstage
    cases hasks
  | collected hactive hstage | failed hactive hstage =>
    obtain ⟨rowSet, heq⟩ := hcollected hactive hstage
    cases heq
  | ended hruns =>
    cases hinterest : batch.interest with
    | active =>
      obtain ⟨rowSet, heq⟩ := hcollected hinterest (stage?_eq_some.mpr ⟨_, hruns⟩)
      cases heq
    | failed error =>
      rw [← hanswer, answer?_of_failed hinterest]
      exact answer?_of_failed hinterest
    | abandoned => rw [answer?, hinterest] at hanswer; cases hanswer
  | abandoned => exact absurd rfl hmove

/-- The row sets of an answer are what the runs of the plans give, in the order of the plans. -/
theorem Faithful.runs_of_answer (h : Faithful plans engine moves batch) {rowSets : List RowSet}
    (hanswer : batch.answer? = some (.ok rowSets)) :
    plans.map (Plan.run engine) = rowSets.map .ok := by
  have hcollected : batch.tasks.map Prod.snd = rowSets.map .collected := by
    unfold answer? at hanswer
    split at hanswer
    · obtain ⟨_, hcollected, heq⟩ := Option.map_eq_some_iff.mp hanswer
      rw [← Except.ok.inj heq]
      exact stages_of_collected? hcollected
    · cases hanswer
    · cases hanswer
  refine List.ext_getElem? fun position => ?_
  have hstage : batch.stage? position = rowSets[position]?.map .collected := by
    rw [stage?, ← List.getElem?_map, hcollected, List.getElem?_map]
  rw [List.getElem?_map, List.getElem?_map]
  cases hrowSet : rowSets[position]? with
  | none =>
    rw [hrowSet, Option.map_none, stage?, Option.map_eq_none_iff] at hstage
    rw [← h.plans_eq, Batch.plans, List.getElem?_map, hstage]
    rfl
  | some rowSet =>
    rw [hrowSet, Option.map_some] at hstage
    obtain ⟨plan, htask⟩ := stage?_eq_some.mp hstage
    have hplan := (getElem?_tasks.mp htask).1
    rw [h.plans_eq] at hplan
    rw [hplan]
    rcases h.results position plan (.collected rowSet) hplan hstage with hrun | ⟨_, -, hlost⟩
    · exact congrArg some hrun.symm
    · cases hlost

/-- A failure that is answered has been raised by a plan. -/
theorem Faithful.raised_of_answer (h : Faithful plans engine moves batch) {error : ExecutionError}
    (hanswer : batch.answer? = some (.error error)) : Raised plans engine moves error := by
  unfold answer? at hanswer
  split at hanswer
  · obtain ⟨_, -, heq⟩ := Option.map_eq_some_iff.mp hanswer
    cases heq
  · next failure hfailed =>
    obtain rfl := Except.error.inj (Option.some.inj hanswer)
    exact h.failure _ hfailed
  · cases hanswer

end Answers

end Batch

end NestedSql
