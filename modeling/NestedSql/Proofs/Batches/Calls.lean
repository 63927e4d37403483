import Mathlib
import NestedSql.Proofs.Batches.Schedule
import NestedSql.Proofs.Compile.Steps
import NestedSql.Service

/-!
# Requests that are answered by batches

A request is answered for all of its sets of variables or for none. When a set does not compile, the
first that does not is the answer, and nothing has touched the pool. When all compile, their plans
run as one batch, of which the results, the permits and the progress are what the modules before
this one say, whatever others do with the pool meanwhile.
-/

namespace NestedSql

namespace Batch

/-- No run breaks off and nobody closes the pool. -/
structure Undisturbed (moves : List Move) : Prop where
  unbroken : ∀ position error, .lost position error ∉ moves
  unclosed : .other .close ∉ moves

/-- How a batch stands after some moves, if its pool was new and of some size. -/
structure Serves (engine : Engine) (size : Nat) (plans : List Plan) (moves : List Move)
    (batch : Batch) : Prop where
  /-- The row sets of an answer are those of all plans, in their order. -/
  ordered : ∀ rowSets, batch.answer? = some (.ok rowSets) →
    plans.map (Plan.run engine) = rowSets.map .ok
  /-- A failure that is answered has been raised by a plan. -/
  raised : ∀ error, batch.answer? = some (.error error) → Raised plans engine moves error
  /-- Nothing fails where no plan does. -/
  succeeds : (∀ plan ∈ plans, ∃ rowSet, plan.run engine = .ok rowSet) → Undisturbed moves →
    ∀ error, batch.answer? ≠ some (.error error)
  /-- There are no row sets where a plan fails. -/
  fails : (∃ plan ∈ plans, ∃ error, plan.run engine = .error error) →
    ∀ rowSets, batch.answer? ≠ some (.ok rowSets)
  /-- No more plans run than the pool has permits. -/
  bounded : batch.running.length ≤ max size 1
  /-- Without others the batch has an open pool for itself. -/
  unshared : (∀ step, .other step ∉ moves) → batch.pool.isOpen = true ∧ batch.Alone
  /-- Nothing that happens takes the plans farther from their ends. -/
  nearer : ∀ move, (batch.move move).remaining ≤ batch.remaining
  /-- An unfinished batch that has an open pool for itself is not stuck, and can be finished. -/
  live : batch.pool.isOpen = true → batch.Alone → batch.Unfinished →
    ∃ event, event ≠ .abandon ∧ (batch.step event).remaining < batch.remaining
  finishes : batch.pool.isOpen = true → batch.Alone →
    ∃ events, .abandon ∉ events ∧ ¬ (batch.after events).Unfinished
  /-- The plans of a finished batch have left the pool, which is complete without others. -/
  returned : ¬ batch.Unfinished →
    (∀ position < plans.length,
      batch.pool.holds position = 0 ∧ batch.pool.wants position = 0) ∧
      (batch.Alone → batch.pool.available = max size 1)

section Serves

variable {engine : Engine} {size : Nat} {plans : List Plan} {moves : List Move} {batch : Batch}
  {error : ExecutionError} {rowSets : List RowSet}

theorem Faithful.answer?_ne_error (h : Faithful plans engine moves batch)
    (hruns : ∀ plan ∈ plans, ∃ rowSet, plan.run engine = .ok rowSet)
    (hundisturbed : Undisturbed moves) : batch.answer? ≠ some (.error error) := by
  intro hanswer
  cases h.raised_of_answer hanswer with
  | run hmem hfails =>
    obtain ⟨rowSet, hrun⟩ := hruns _ hmem
    cases hrun.symm.trans hfails
  | lost _ hlost => exact hundisturbed.unbroken _ _ hlost
  | refused _ hclosed => exact hundisturbed.unclosed hclosed

theorem run_eq_ok (h : plans.map (Plan.run engine) = rowSets.map .ok) {plan : Plan}
    (hmem : plan ∈ plans) : ∃ rowSet, plan.run engine = .ok rowSet := by
  have hrun := List.mem_map_of_mem (f := Plan.run engine) hmem
  rw [h] at hrun
  obtain ⟨rowSet, -, hok⟩ := List.mem_map.mp hrun
  exact ⟨rowSet, hok.symm⟩

theorem Faithful.answer?_ne_ok (h : Faithful plans engine moves batch)
    (hfails : ∃ plan ∈ plans, ∃ error, plan.run engine = .error error) :
    batch.answer? ≠ some (.ok rowSets) := by
  intro hanswer
  obtain ⟨plan, hmem, error, hfails⟩ := hfails
  obtain ⟨rowSet, hrun⟩ := run_eq_ok (h.runs_of_answer hanswer) hmem
  cases hrun.symm.trans hfails

theorem sole_along (moves : List Move)
    (hopen : ((ofPlans engine (.ofSize size) plans).along moves).pool.isOpen = true)
    (halone : ((ofPlans engine (.ofSize size) plans).along moves).Alone) :
    ((ofPlans engine (.ofSize size) plans).along moves).Sole where
  placed := placed_along placed_ofPlans moves
  settled := settled_along settled_ofPlans moves
  alone := halone
  isOpen := hopen
  capacity_pos := by
    rw [capacity_along placed_ofPlans]
    exact Nat.lt_of_lt_of_le Nat.one_pos (Nat.le_max_right size 1)

/-- A batch on a new pool serves its plans, whatever happens. -/
theorem serves_along (engine : Engine) (size : Nat) (plans : List Plan) (moves : List Move) :
    ((ofPlans engine (.ofSize size) plans).along moves).Serves engine size plans moves := by
  have hstart : (ofPlans engine (.ofSize size) plans).Placed := placed_ofPlans
  have hp := placed_along hstart moves
  have hs : ((ofPlans engine (.ofSize size) plans).along moves).Settled :=
    settled_along settled_ofPlans moves
  have hf : Faithful plans engine moves ((ofPlans engine (.ofSize size) plans).along moves) :=
    faithful_along hstart faithful_ofPlans fun _ hmem => hmem
  have hcapacity := capacity_along hstart moves
  exact
    { ordered := fun _ => hf.runs_of_answer
      raised := fun _ => hf.raised_of_answer
      succeeds := fun hruns hundisturbed _ => hf.answer?_ne_error hruns hundisturbed
      fails := fun hfails _ => hf.answer?_ne_ok hfails
      bounded := Nat.le_trans hp.length_running (Nat.le_of_eq hcapacity)
      unshared := fun hothers => ⟨hf.isOpen.resolve_right (hothers .close),
        alone_along hstart alone_ofPlans fun step hmem => absurd hmem (hothers step)⟩
      nearer := fun move => (turn move).weigh_le Stage.descends_rest
      live := fun hopen halone => (sole_along moves hopen halone).live
      finishes := fun hopen halone => (sole_along moves hopen halone).exists_finished
      returned := fun hfinished => by
        refine ⟨fun position hlt => ?_, fun halone => ?_⟩
        · rw [← hf.plans_eq, ← length_tasks] at hlt
          obtain ⟨stage, hstage⟩ := exists_stage hlt
          exact hp.stands_of_finished hs hfinished hstage
        · exact (hp.available_of_finished hs halone hfinished).trans hcapacity }

/-- The schedule of a batch on a new pool ends with all row sets or with the failure of a plan. -/
theorem run_ofPlans (engine : Engine) (size : Nat) (plans : List Plan) :
    (∃ rowSets, (ofPlans engine (.ofSize size) plans).run = .ok rowSets ∧
      plans.map (Plan.run engine) = rowSets.map .ok) ∨
    ∃ plan ∈ plans, ∃ error, plan.run engine = .error error ∧
      (ofPlans engine (.ofSize size) plans).run = .error error := by
  have hsole : (ofPlans engine (.ofSize size) plans).Sole :=
    sole_along [] rfl alone_ofPlans
  have hanswer := hsole.answer?_schedule rfl
  rw [after_eq_along] at hanswer
  have hserves := serves_along engine size plans
    ((schedule (ofPlans engine (.ofSize size) plans).tasks.length).map .own)
  cases hrun : (ofPlans engine (.ofSize size) plans).run with
  | ok rowSets => exact .inl ⟨rowSets, rfl, hserves.ordered rowSets (hrun ▸ hanswer)⟩
  | error error =>
    cases hserves.raised error (hrun ▸ hanswer) with
    | @run plan _ hmem hfails => exact .inr ⟨plan, hmem, error, hfails, rfl⟩
    | lost _ hlost =>
      obtain ⟨_, -, heq⟩ := List.mem_map.mp hlost
      cases heq
    | refused _ hclosed =>
      obtain ⟨_, -, heq⟩ := List.mem_map.mp hclosed
      cases heq

end Serves

end Batch

/-- A request that is being answered: refused before there is a plan, or a batch of plans. -/
inductive Call where
  | refused (failure : Failure) (pool : Pool Nat)
  | begun (batch : Batch)

namespace Call

/-- For a request that is refused only others move. -/
def move : Call → Batch.Move → Call
  | .refused failure pool, .other step => .refused failure (pool.step step).1
  | .refused failure pool, _ => .refused failure pool
  | .begun batch, move => .begun (batch.move move)

/-- The call after some moves. -/
def along (call : Call) (moves : List Batch.Move) : Call := moves.foldl move call

def answer? : Call → Option (Except Failure (List RowSet))
  | .refused failure _ => some (.error failure)
  | .begun batch => batch.answer?.map (Except.mapError ExecutionError.failure)

/-- The steps of others. -/
def others (moves : List Batch.Move) : List (PoolStep Nat) :=
  moves.filterMap fun
    | .other step => some step
    | _ => none

theorem along_begun {batch : Batch} {moves : List Batch.Move} :
    (begun batch).along moves = begun (batch.along moves) := by
  induction moves generalizing batch with
  | nil => rfl
  | cons move moves ih => exact @ih (batch.move move)

/-- A request that is refused leaves the pool to others. -/
theorem along_refused {failure : Failure} {pool : Pool Nat} {moves : List Batch.Move} :
    (refused failure pool).along moves = refused failure (pool.after (others moves)) := by
  induction moves generalizing pool with
  | nil => rfl
  | cons move moves ih =>
    cases move with
    | own | lost => exact ih
    | other step => exact @ih (pool.step step).1

end Call

section Lists

variable {α β ε : Type} {step : α → Except ε β}

theorem mapM_eq_ok_iff {items : List α} {results : List β} :
    items.mapM step = .ok results ↔ items.map step = results.map .ok := by
  induction items generalizing results with
  | nil => cases results <;> simp [pure, Except.pure]
  | cons item items ih =>
    rw [Compile.mapM_cons_eq_ok]
    cases results <;> simp [ih]

end Lists

namespace Service

/-- A request is compiled for all of its sets of variables before any plan runs. -/
def call (service : Service) (request : Request) : Call :=
  match service.plans request with
  | .ok plans => .begun (Batch.ofPlans service.engine service.pool plans)
  | .error failure => .refused failure service.pool

section Calls

variable {service : Service} {request : Request} {plans : List Plan}

theorem plans_of_compiled
    (h : request.variableSets.map (request.compile service.schema) = plans.map .ok) :
    service.plans request = .ok plans := by
  rw [Service.plans, Request.plans, mapM_eq_ok_iff.mpr h]
  rfl

theorem plans_of_first_error {before after : List VariableSet} {bindings : VariableSet}
    {error : CompileError} (hsets : request.variableSets = before ++ bindings :: after)
    (hbefore : ∀ earlier ∈ before, ∃ plan, request.compile service.schema earlier = .ok plan)
    (hfails : request.compile service.schema bindings = .error error) :
    service.plans request = .error error.failure := by
  rw [Service.plans, Request.plans,
    Compile.mapM_eq_error.mpr ⟨before, bindings, after, hsets, hbefore, hfails⟩]
  rfl

theorem answer_eq_run (hplans : service.plans request = .ok plans) : service.answer request =
    (Batch.ofPlans service.engine service.pool plans).run.mapError ExecutionError.failure := by
  simp only [answer, hplans, bind, Except.bind]
  cases (Batch.ofPlans service.engine service.pool plans).run <;> rfl

/-- A request that compiles is answered with all row sets or with the failure of a plan. -/
theorem answer_cases (hplans : service.plans request = .ok plans) {size : Nat}
    (hpool : service.pool = .ofSize size) :
    (∃ rowSets, service.answer request = .ok rowSets ∧
      plans.map (Plan.run service.engine) = rowSets.map .ok) ∨
    ∃ plan ∈ plans, ∃ error, plan.run service.engine = .error error ∧
      service.answer request = .error error.failure := by
  rw [answer_eq_run hplans, hpool]
  rcases Batch.run_ofPlans service.engine size plans with
    ⟨rowSets, hrun, hall⟩ | ⟨plan, hmem, error, hfails, hrun⟩
  · exact .inl ⟨rowSets, congrArg (Except.mapError ExecutionError.failure) hrun, hall⟩
  · exact .inr ⟨plan, hmem, error, hfails,
      congrArg (Except.mapError ExecutionError.failure) hrun⟩

end Calls

/-- A request is answered for all of its sets of variables, in their order, or with the failure of
one of them. The first set that does not compile is the answer before any plan is made, and the pool
is only moved by others. Otherwise the plans of all sets run as a batch that serves them, and the
schedule ends with their row sets or with a failure of one of them. -/
theorem answered_whole_and_in_order (schema : Schema) (engine : Engine) (size : Nat)
    (request : Request) (moves : List Batch.Move) :
    let service : Service := ⟨schema, engine, .ofSize size⟩
    let call := (service.call request).along moves
    let sets := match request.bindings with
      | none => [[]]
      | some sets => sets
    (∀ before bindings after error, sets = before ++ bindings :: after →
      (∀ earlier ∈ before, ∃ plan, request.compile schema earlier = .ok plan) →
      request.compile schema bindings = .error error →
        call = .refused error.failure ((Pool.ofSize size).after (Call.others moves)) ∧
          service.answer request = .error error.failure) ∧
      ∀ plans, sets.map (request.compile schema) = plans.map .ok →
        (∃ batch, call = .begun batch ∧ batch.Serves engine size plans moves) ∧
          (∀ rowSets, plans.map (Plan.run engine) = rowSets.map .ok →
            service.answer request = .ok rowSets) ∧
          ((∃ plan ∈ plans, ∃ error, plan.run engine = .error error) →
            ∃ plan ∈ plans, ∃ error, plan.run engine = .error error ∧
              service.answer request = .error error.failure) := by
  intro service call sets
  have hsets : request.variableSets = sets := by
    unfold Request.variableSets
    cases hbindings : request.bindings <;> simp [sets, hbindings]
  refine ⟨fun before bindings after error hsplit hbefore hfails => ?_, fun plans hcompiled => ?_⟩
  · have hplans : service.plans request = .error error.failure :=
      plans_of_first_error (hsets.trans hsplit) hbefore hfails
    refine ⟨?_, ?_⟩
    · simp only [call, Service.call, hplans]
      exact Call.along_refused
    · rw [answer, hplans]
      rfl
  · have hplans : service.plans request = .ok plans := plans_of_compiled (hsets ▸ hcompiled)
    have hanswer := answer_cases hplans rfl
    refine ⟨⟨_, ?begun, Batch.serves_along engine size plans moves⟩, ?succeeds, ?fails⟩
    case begun =>
      simp only [call, Service.call, hplans]
      exact Call.along_begun
    case succeeds =>
      intro rowSets hruns
      rcases hanswer with ⟨answered, hanswered, hall⟩ | ⟨plan, hmem, error, hfails, -⟩
      · obtain rfl := (List.map_inj_right fun _ _ => Except.ok.inj).mp (hall.symm.trans hruns)
        exact hanswered
      · obtain ⟨rowSet, hrun⟩ := Batch.run_eq_ok hruns hmem
        cases hrun.symm.trans hfails
    case fails =>
      rintro ⟨plan, hmem, error, hfails⟩
      refine hanswer.resolve_left fun ⟨rowSets, _, hall⟩ => ?_
      obtain ⟨rowSet, hrun⟩ := Batch.run_eq_ok hall hmem
      cases hrun.symm.trans hfails

/-- People are looked up by a variable. -/
def lookup (sets : List VariableSet) : Request where
  collection := "people"
  query := ⟨some [("name", .column "name")], none, none, none, none,
    some (.binary (.column "name" []) "_eq" (.variable "who")), none⟩
  relationships := []
  bindings := some sets

/-- A table of people, with one row, and two permits. -/
def registry : Service where
  schema := Schema.empty.registerColumns "people" "main.people" [("name", .named "String")]
  engine statement := .text (if statement.params = [.string "ada"] then
    "\x7b\"rows\":[\x7b\"name\":\"ada\"\x7d]\x7d" else "\x7b\"rows\":[]\x7d")
  pool := .ofSize 2

/-- Two people are looked up at once; whose run ends first does not matter, and a third set that
binds nothing refuses all. -/
theorem lookups_answered_in_order :
    let sets : List VariableSet := [[("who", .string "ada")], [("who", .string "bob")]]
    let rowSets : List RowSet := [⟨some [[("name", .string "ada")]], none, none⟩,
      ⟨some [], none, none⟩]
    registry.answer (lookup sets) = .ok rowSets ∧
      ((registry.call (lookup sets)).along [.own (.poll 0), .own (.poll 1), .own (.finish 1),
        .own (.poll 1), .own (.finish 0), .own (.poll 0)]).answer? = some (.ok rowSets) ∧
      registry.answer (lookup (sets ++ [[]])) =
        .error ⟨.configurationError, "variable 'who' is not bound"⟩ := by
  intro sets rowSets
  obtain ⟨ada, hada, hadaRun⟩ : ∃ plan,
      (lookup sets).compile registry.schema [("who", .string "ada")] = .ok plan ∧
        plan.run registry.engine = .ok ⟨some [[("name", .string "ada")]], none, none⟩ :=
    ⟨_, rfl, by cbv⟩
  obtain ⟨bob, hbob, hbobRun⟩ : ∃ plan,
      (lookup sets).compile registry.schema [("who", .string "bob")] = .ok plan ∧
        plan.run registry.engine = .ok ⟨some [], none, none⟩ :=
    ⟨_, rfl, by cbv⟩
  have hcompiled : sets.map ((lookup sets).compile registry.schema) = [ada, bob].map .ok :=
    congrArg₂ List.cons hada (congrArg₂ List.cons hbob rfl)
  have hruns : [ada, bob].map (Plan.run registry.engine) = rowSets.map .ok :=
    congrArg₂ List.cons hadaRun (congrArg₂ List.cons hbobRun rfl)
  have hrefused := (answered_whole_and_in_order registry.schema registry.engine 2
    (lookup (sets ++ [[]])) []).1 sets [] [] (.variableNotBound "who") rfl
    (List.forall_mem_cons.mpr ⟨⟨_, hada⟩, List.forall_mem_singleton.mpr ⟨_, hbob⟩⟩) rfl
  obtain ⟨⟨batch, hbatch, hserves⟩, hall, -⟩ := (answered_whole_and_in_order registry.schema
    registry.engine 2 (lookup sets) [.own (.poll 0), .own (.poll 1), .own (.finish 1),
      .own (.poll 1), .own (.finish 0), .own (.poll 0)]).2 _ hcompiled
  refine ⟨hall rowSets hruns, ?_, hrefused.2⟩
  have hanswered : ((registry.call (lookup sets)).along [.own (.poll 0), .own (.poll 1),
    .own (.finish 1), .own (.poll 1), .own (.finish 0), .own (.poll 0)]).answer?.isSome := by cbv
  have hsucceeds := hserves.succeeds (fun plan hmem => Batch.run_eq_ok hruns hmem)
    ⟨by simp, by simp⟩
  change ((registry.call (lookup sets)).along _) = _ at hbatch
  rw [hbatch, Call.answer?] at hanswered ⊢
  cases hanswer : batch.answer? with
  | none => rw [hanswer] at hanswered; cases hanswered
  | some answer =>
    cases answer with
    | error error => exact absurd hanswer (hsucceeds error)
    | ok answered =>
      obtain rfl := (List.map_inj_right fun _ _ => Except.ok.inj).mp
        ((hserves.ordered answered hanswer).symm.trans hruns)
      rfl

end Service

end NestedSql
