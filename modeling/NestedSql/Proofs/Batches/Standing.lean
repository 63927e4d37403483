import NestedSql.Proofs.Batches.Moves

/-!
# Batches and their pool

Whatever happens around a batch, each plan stands with the pool where its stage says: it holds a
permit exactly while its statements run, and wants one exactly while it waits. The pool stays as
large as it is, is closed only by others, and is left to the batch if nobody else uses it.
-/

namespace NestedSql.Batch

/-- Each plan stands with the pool where its stage says. -/
structure Placed (batch : Batch) : Prop where
  balanced : batch.pool.Balanced
  stands : ∀ position stage, batch.stage? position = some stage →
    batch.pool.holds position = stage.holds ∧ batch.pool.wants position = stage.wants

/-- Nobody else has or wants a permit of the pool. -/
def Alone (batch : Batch) : Prop :=
  ∀ client, batch.tasks.length ≤ client →
    batch.pool.holds client = 0 ∧ batch.pool.wants client = 0

section Moves

variable {batch next : Batch} {position : Nat} {stage later : Stage} {step : PoolStep Nat}
  {move : Move}

/-! ## Plans stand where their stages say -/

theorem Placed.advance (hp : batch.Placed) (hclient : step.client? = some position)
    (hlater : (batch.pool.step step).2.holds = later.holds ∧
      (batch.pool.step step).2.wants = later.wants) :
    (batch.advance position step later).Placed := by
  have hturn := Pool.turn hp.balanced step
  refine ⟨Pool.balanced_step hp.balanced step, fun other stage hstage => ?_⟩
  rcases of_stage?_advance hstage with ⟨rfl, rfl⟩ | ⟨hother, hstage⟩
  · obtain ⟨hholds, hwants⟩ := hturn.stands hp.balanced hclient
    exact ⟨hholds.trans hlater.1, hwants.trans hlater.2⟩
  · have hnotAsking : step.client? ≠ some other := fun hasks =>
      hother (Option.some.inj (hclient.symm.trans hasks))
    obtain ⟨hholds, hwants⟩ := hturn.others hnotAsking
    obtain ⟨hstood, hwanted⟩ := hp.stands other stage hstage
    exact ⟨hholds.trans hstood, hwants.trans hwanted⟩

theorem Placed.halt (hp : batch.Placed) (interest : Interest) : (batch.halt interest).Placed := by
  refine ⟨halt_eq ▸ Pool.balanced_after hp.balanced _, fun position stage hstage => ?_⟩
  rw [stage?_halt] at hstage
  rw [halt_eq]
  obtain ⟨before, hbefore, rfl⟩ := Option.map_eq_some_iff.mp hstage
  obtain ⟨hgone, hothers⟩ := Pool.stands_after_releases hp.balanced batch.waiting position
  obtain ⟨hholds, hwants⟩ := hp.stands position before hbefore
  rw [Stage.holds_halted, Stage.wants_halted]
  by_cases hwaits : position ∈ batch.waiting
  · obtain rfl := Option.some.inj (hbefore.symm.trans (mem_waiting.mp hwaits))
    exact hgone hwaits
  · obtain ⟨hlater, hlaterWants⟩ := hothers hwaits
    refine ⟨hlater.trans hholds, hlaterWants.trans (hwants.trans ?_)⟩
    cases before with
    | waiting => exact absurd (mem_waiting.mpr hbefore) hwaits
    | queued | running | ended | collected | dropped => rfl

theorem Placed.collect (hp : batch.Placed) {rowSet : RowSet}
    (hstage : batch.stage? position = some (.ended (.ok rowSet))) :
    (batch.setStage position (.collected rowSet)).Placed := by
  refine ⟨hp.balanced, fun other stage hother => ?_⟩
  rcases of_stage?_setStage hother with ⟨rfl, rfl⟩ | ⟨-, hother⟩
  · exact hp.stands position (.ended (.ok rowSet)) hstage
  · exact hp.stands other stage hother

/-- What others do with the pool leaves the plans where they are. -/
theorem Placed.share (hp : batch.Placed) (step : PoolStep Nat) : (batch.share step).Placed := by
  refine ⟨Pool.balanced_step hp.balanced _, fun position stage hstage => ?_⟩
  have hlt : position < batch.tasks.length := lt_of_stage? hstage
  have hother : (step.map (batch.tasks.length + ·)).client? ≠ some position := by
    rw [PoolStep.client?_map]
    intro hasks
    obtain ⟨client, -, heq⟩ := Option.map_eq_some_iff.mp hasks
    omega
  obtain ⟨hholds, hwants⟩ := (Pool.turn hp.balanced _).others hother
  obtain ⟨hstood, hwanted⟩ := hp.stands position stage hstage
  exact ⟨hholds.trans hstood, hwants.trans hwanted⟩

theorem Turn.placed (h : Turn batch move next) (hp : batch.Placed) : next.Placed := by
  cases h with
  | idle => exact hp
  | asked _ _ hasks htold =>
    exact hp.advance (Stage.client?_of_step? hasks) (Stage.stands_of_ofAnswer? htold)
  | refused _ _ hasks htold =>
    have hdropped : (batch.advance _ _ .dropped).Placed := hp.advance (Stage.client?_of_step? hasks)
      (Stage.stands_of_ofAnswer?_eq_none htold)
    exact hdropped.halt _
  | collected _ hstage => exact hp.collect hstage
  | failed | abandoned => exact hp.halt _
  | ended => exact hp.advance rfl (Pool.stands_of_release _ _)
  | shared => exact hp.share _

theorem placed_along (hp : batch.Placed) (moves : List Move) : (batch.along moves).Placed := by
  induction moves generalizing batch with
  | nil => exact hp
  | cons move moves ih => exact ih ((turn move).placed hp)

/-! ## The pool stays as large and open as it is -/

theorem Turn.capacity_eq (h : Turn batch move next) (hp : batch.Placed) :
    next.pool.capacity = batch.pool.capacity := by
  have hstep : ∀ step, (batch.pool.step step).1.capacity = batch.pool.capacity :=
    fun step => (Pool.turn hp.balanced step).capacity_eq
  cases h with
  | idle | collected => rfl
  | asked | ended | shared => exact hstep _
  | refused =>
    rw [halt_eq]
    exact (Pool.capacity_after (Pool.balanced_step hp.balanced _) _).trans (hstep _)
  | failed | abandoned =>
    rw [halt_eq]
    exact Pool.capacity_after hp.balanced _

/-- Only closing changes whether the pool is open. -/
theorem Turn.isOpen_eq (h : Turn batch move next) (hp : batch.Placed)
    (hother : move ≠ .other .close) : next.pool.isOpen = batch.pool.isOpen := by
  have hstep : ∀ {step : PoolStep Nat}, step.client?.isSome = true →
      (batch.pool.step step).1.isOpen = batch.pool.isOpen := by
    intro step hclient
    rw [(Pool.turn hp.balanced step).isOpen_eq, hclient, Bool.and_true]
  have hasked : ∀ {position : Nat} {stage : Stage} {step : PoolStep Nat},
      stage.step? position = some step →
        (batch.pool.step step).1.isOpen = batch.pool.isOpen := by
    intro position stage step hasks
    exact hstep (Option.isSome_iff_exists.mpr ⟨_, Stage.client?_of_step? hasks⟩)
  cases h with
  | idle | collected => rfl
  | asked _ _ hasks => exact hasked hasks
  | refused _ _ hasks =>
    rw [halt_eq]
    exact (Pool.isOpen_after_releases (Pool.balanced_step hp.balanced _) _).trans (hasked hasks)
  | failed | abandoned =>
    rw [halt_eq]
    exact Pool.isOpen_after_releases hp.balanced _
  | ended => exact hstep rfl
  | @shared step =>
    refine hstep ?_
    cases step with
    | acquire | poll | release => rfl
    | close => exact absurd rfl hother

/-- An open pool refuses no plan. -/
theorem Placed.told_of_open (hp : batch.Placed) (hopen : batch.pool.isOpen = true)
    (hstage : batch.stage? position = some stage) (hasks : stage.step? position = some step) :
    Stage.ofAnswer? (batch.pool.step step).2 ≠ none := by
  have htold : ∀ {answer : PoolAnswer}, answer = .held ∨ answer = .pending →
      Stage.ofAnswer? answer ≠ none := by
    rintro answer (rfl | rfl) <;> exact nofun
  obtain ⟨hholds, hwants⟩ := hp.stands position stage hstage
  cases stage with
  | queued =>
    obtain rfl := Option.some.inj hasks
    exact htold (Pool.acquire_of_open hopen (Pool.knows_eq_false.mpr ⟨hholds, hwants⟩))
  | waiting =>
    obtain rfl := Option.some.inj hasks
    exact htold (Pool.poll_of_open hp.balanced hopen hwants)
  | running | ended | collected | dropped => cases hasks

theorem capacity_along (hp : batch.Placed) (moves : List Move) :
    (batch.along moves).pool.capacity = batch.pool.capacity := by
  induction moves generalizing batch with
  | nil => rfl
  | cons move moves ih => exact (ih ((turn move).placed hp)).trans ((turn move).capacity_eq hp)

/-! ## A batch that has the pool for itself -/

theorem Alone.advance (hb : batch.pool.Balanced) (h : batch.Alone)
    (hstage : batch.stage? position = some stage) (hclient : step.client? = some position) :
    (batch.advance position step later).Alone := by
  intro client hbeyond
  rw [length_tasks, plans_advance, ← length_tasks] at hbeyond
  have hlt := lt_of_stage? hstage
  have hother : step.client? ≠ some client := fun hasks => by
    have := Option.some.inj (hclient.symm.trans hasks)
    omega
  obtain ⟨hholds, hwants⟩ := (Pool.turn hb step).others hother
  obtain ⟨hnone, hnoneWanted⟩ := h client hbeyond
  exact ⟨hholds.trans hnone, hwants.trans hnoneWanted⟩

theorem Alone.halt (hb : batch.pool.Balanced) (h : batch.Alone) (interest : Interest) :
    (batch.halt interest).Alone := by
  intro client hbeyond
  rw [length_tasks, plans_halt, ← length_tasks] at hbeyond
  rw [halt_eq]
  have hnotWaiting : client ∉ batch.waiting := fun hwaits => by
    have := lt_of_stage? (mem_waiting.mp hwaits)
    omega
  obtain ⟨hholds, hwants⟩ :=
    (Pool.stands_after_releases hb batch.waiting client).2 hnotWaiting
  obtain ⟨hnone, hnoneWanted⟩ := h client hbeyond
  exact ⟨hholds.trans hnone, hwants.trans hnoneWanted⟩

/-- Only plans that run hold permits of a pool that nobody else uses. -/
theorem Placed.running_of_holds (hp : batch.Placed) (halone : batch.Alone)
    (h : batch.pool.holds position = 1) : batch.stage? position = some .running := by
  rcases Nat.lt_or_ge position batch.tasks.length with hlt | hbeyond
  · obtain ⟨stage, hstage⟩ := exists_stage hlt
    have hholds := (hp.stands position stage hstage).1.symm.trans h
    cases stage with
    | running => exact hstage
    | queued | waiting | ended | collected | dropped => cases hholds
  · rw [(halone position hbeyond).1] at h
    cases h

/-- Only plans that wait want permits of a pool that nobody else uses. -/
theorem Placed.waiting_of_wants (hp : batch.Placed) (halone : batch.Alone)
    (h : batch.pool.wants position = 1) : batch.stage? position = some .waiting := by
  rcases Nat.lt_or_ge position batch.tasks.length with hlt | hbeyond
  · obtain ⟨stage, hstage⟩ := exists_stage hlt
    have hwants := (hp.stands position stage hstage).2.symm.trans h
    cases stage with
    | waiting => exact hstage
    | queued | running | ended | collected | dropped => cases hwants
  · rw [(halone position hbeyond).2] at h
    cases h

/-- A batch that has the pool for itself shares it with nobody by its own moves. -/
theorem Turn.alone (hturn : Turn batch move next) (hp : batch.Placed) (h : batch.Alone)
    (hown : ∀ step, move = .other step → step = .close) : next.Alone := by
  cases hturn with
  | idle => exact h
  | asked _ hstage hasks => exact h.advance hp.balanced hstage (Stage.client?_of_step? hasks)
  | refused _ hstage hasks =>
    have hdropped : (batch.advance _ _ .dropped).Alone :=
      h.advance hp.balanced hstage (Stage.client?_of_step? hasks)
    exact hdropped.halt (Pool.balanced_step hp.balanced _) _
  | collected =>
    intro client hbeyond
    rw [length_tasks, plans_setStage, ← length_tasks] at hbeyond
    exact h client hbeyond
  | failed | abandoned => exact h.halt hp.balanced _
  | ended hruns => exact h.advance hp.balanced (stage?_eq_some.mpr ⟨_, hruns⟩) rfl
  | shared =>
    obtain rfl := hown _ rfl
    exact h

theorem alone_along (hp : batch.Placed) (h : batch.Alone) {moves : List Move}
    (hown : ∀ step, .other step ∈ moves → step = .close) : (batch.along moves).Alone := by
  induction moves generalizing batch with
  | nil => exact h
  | cons move moves ih =>
    have hmove : ∀ step, move = .other step → step = .close := fun step heq =>
      hown step (heq ▸ List.mem_cons_self)
    exact ih ((turn move).placed hp) ((turn move).alone hp h hmove)
      fun step hmem => hown step (List.mem_cons_of_mem _ hmem)

end Moves

/-! ## Before the first move -/

section Starts

variable {engine : Engine} {pool : Pool Nat} {size position : Nat} {stage : Stage}
  {plans : List Plan}

@[simp] theorem plans_ofPlans : (ofPlans engine pool plans).plans = plans := by
  simp [ofPlans, Batch.plans, Function.comp_def]

theorem stage?_ofPlans (h : (ofPlans engine pool plans).stage? position = some stage) :
    stage = .queued := by
  rw [stage?, ofPlans, List.getElem?_map, Option.map_map] at h
  obtain ⟨plan, -, rfl⟩ := Option.map_eq_some_iff.mp h
  rfl

theorem placed_ofPlans : (ofPlans engine (.ofSize size) plans).Placed := by
  refine ⟨Pool.balanced_ofSize size, fun position stage hstage => ?_⟩
  obtain rfl := stage?_ofPlans hstage
  exact ⟨rfl, rfl⟩

theorem alone_ofPlans : (ofPlans engine (.ofSize size) plans).Alone := fun _ _ => ⟨rfl, rfl⟩

end Starts

end NestedSql.Batch
