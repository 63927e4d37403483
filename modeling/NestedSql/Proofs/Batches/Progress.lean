import Mathlib.Algebra.Order.BigOperators.Group.List
import Mathlib.Algebra.Order.Ring.Nat
import Mathlib.Data.List.Perm.Subperm
import NestedSql.Proofs.Batches.Results
import NestedSql.Proofs.Pool.Conservation

/-!
# Progress of batches

No more plans run than the pool has permits. A batch that has an open pool for itself is never
stuck: while it is unfinished, asking some plan or ending some run brings it closer to its end. Once
it is finished none of its plans has or wants a permit, whether it was answered or given up.
-/

namespace NestedSql

namespace Stage

def isRunning : Stage → Bool
  | .running => true
  | _ => false

theorem isRunning_iff {stage : Stage} : stage.isRunning = true ↔ stage = .running := by
  cases stage <;> simp [isRunning]

/-- How far a plan is from its end. -/
def rest : Stage → Nat
  | .queued => 4
  | .waiting => 3
  | .running => 2
  | .ended _ => 1
  | .collected _ | .dropped => 0

/-- A weight that no plan gains on its way to its end. -/
structure Descends (weight : Stage → Nat) : Prop where
  waits : weight .waiting ≤ weight .queued
  runs : weight .running ≤ weight .waiting
  ends : ∀ result, weight (.ended result) ≤ weight .running
  collects : ∀ rowSet result, weight (.collected rowSet) ≤ weight (.ended result)
  drops : ∀ stage, weight .dropped ≤ weight stage

theorem descends_rest : Descends rest where
  waits := Nat.le_succ 3
  runs := Nat.le_succ 2
  ends _ := Nat.le_succ 1
  collects _ _ := Nat.zero_le 1
  drops _ := Nat.zero_le _

section Descends

variable {weight : Stage → Nat} {stage later : Stage} {position : Nat} {step : PoolStep Nat}
  {answer : PoolAnswer}

theorem Descends.asked (hw : Descends weight) (hasks : stage.step? position = some step)
    (htold : ofAnswer? answer = some later) : weight later ≤ weight stage := by
  have := hw.waits
  have := hw.runs
  cases stage with
  | queued | waiting =>
    rcases ofAnswer?_eq_some.mp htold with ⟨-, rfl⟩ | ⟨-, rfl⟩ <;> omega
  | running | ended | collected | dropped => cases hasks

theorem Descends.halted (hw : Descends weight) (stage : Stage) :
    weight stage.halted ≤ weight stage := by
  cases stage with
  | running => exact Nat.le_refl _
  | queued | waiting | ended | collected | dropped => exact hw.drops _

end Descends

end Stage

namespace Batch

/-- The plans whose statements are running. -/
def running (batch : Batch) : List Nat :=
  (List.range batch.tasks.length).filter fun position =>
    (batch.stage? position).any Stage.isRunning

/-- Some run has not ended, or somebody still waits for the answer. -/
def Unfinished (batch : Batch) : Prop :=
  batch.running ≠ [] ∨ batch.interest = .active ∧ batch.answer? = none

/-- A batch that has an open pool for itself. -/
structure Sole (batch : Batch) : Prop where
  placed : batch.Placed
  settled : batch.Settled
  alone : batch.Alone
  isOpen : batch.pool.isOpen = true
  capacity_pos : 0 < batch.pool.capacity

/-- The weight of all plans together. -/
def weigh (weight : Stage → Nat) (batch : Batch) : Nat :=
  (batch.tasks.map fun task => weight task.2).sum

/-- How far the plans are from their ends. -/
def remaining (batch : Batch) : Nat := batch.weigh Stage.rest

section Weights

variable {weight : Stage → Nat} {batch next : Batch} {position : Nat} {stage later : Stage}
  {move : Move}

theorem mem_running : position ∈ batch.running ↔ batch.stage? position = some .running := by
  rw [running, List.mem_filter, List.mem_range, Option.any_eq_true]
  constructor
  · rintro ⟨-, stage, hstage, hruns⟩
    rw [hstage, Stage.isRunning_iff.mp hruns]
  · exact fun hstage => ⟨lt_of_stage? hstage, .running, hstage, rfl⟩

/-- No more plans run than the pool has permits. -/
theorem Placed.length_running (hp : batch.Placed) :
    batch.running.length ≤ batch.pool.capacity := by
  have hsubset : batch.running ⊆ batch.pool.held := by
    intro position hruns
    have hholds : batch.pool.holds position = 1 :=
      (hp.stands position .running (mem_running.mp hruns)).1
    exact List.count_pos_iff.mp (Nat.lt_of_lt_of_eq Nat.one_pos hholds.symm)
  have hnodup : batch.running.Nodup := List.nodup_range.filter _
  have hheld := (List.subperm_of_subset hnodup hsubset).length_le
  have htotal := hp.balanced.total
  omega

theorem sum_modify {tasks : List (Plan × Stage)} {plan : Plan}
    (htask : tasks[position]? = some (plan, stage)) :
    ((tasks.modify position fun task => (task.1, later)).map fun task => weight task.2).sum +
        weight stage =
      (tasks.map fun task => weight task.2).sum + weight later := by
  induction tasks generalizing position with
  | nil => cases htask
  | cons task tasks ih =>
    cases position with
    | zero =>
      obtain rfl := Option.some.inj htask
      simp only [List.modify_zero_cons, List.map_cons, List.sum_cons]
      omega
    | succ position =>
      have hrest := ih htask
      simp only [List.modify_succ_cons, List.map_cons, List.sum_cons]
      omega

theorem weigh_setStage (weight : Stage → Nat) (later : Stage)
    (hstage : batch.stage? position = some stage) :
    (batch.setStage position later).weigh weight + weight stage =
      batch.weigh weight + weight later := by
  obtain ⟨plan, htask⟩ := stage?_eq_some.mp hstage
  exact sum_modify htask

theorem weigh_halt (interest : Interest) : (batch.halt interest).weigh weight =
    (batch.tasks.map fun task => weight task.2.halted).sum := by
  rw [halt_eq, weigh, List.map_map]
  rfl

theorem weigh_halt_le (hw : Stage.Descends weight) (interest : Interest) :
    (batch.halt interest).weigh weight ≤ batch.weigh weight := by
  rw [weigh_halt]
  exact List.sum_le_sum fun task _ => hw.halted task.2

/-- A plan that is dropped makes a batch lighter. -/
theorem weigh_halt_lt (hw : Stage.Descends weight) (interest : Interest)
    (hstage : batch.stage? position = some stage) (hless : weight stage.halted < weight stage) :
    (batch.halt interest).weigh weight < batch.weigh weight := by
  obtain ⟨plan, htask⟩ := stage?_eq_some.mp hstage
  rw [weigh_halt]
  exact List.sum_lt_sum _ _ (fun task _ => hw.halted task.2)
    ⟨(plan, stage), List.mem_of_getElem? htask, hless⟩

theorem weigh_le_length (hw : ∀ stage, weight stage ≤ 1) :
    batch.weigh weight ≤ batch.tasks.length := by
  have hsum := List.sum_le_card_nsmul (batch.tasks.map fun task => weight task.2) 1 (by
    intro _ hmem
    obtain ⟨task, -, rfl⟩ := List.mem_map.mp hmem
    exact hw task.2)
  rw [List.length_map] at hsum
  exact Nat.le_trans hsum (Nat.le_of_eq (Nat.mul_one _))

/-- Nothing that happens takes the plans farther from their ends. -/
theorem Turn.weigh_le (hturn : Turn batch move next) (hw : Stage.Descends weight) :
    next.weigh weight ≤ batch.weigh weight := by
  have hmoved : ∀ {batch : Batch} {position : Nat} {stage later : Stage},
      batch.stage? position = some stage → weight later ≤ weight stage →
        (batch.setStage position later).weigh weight ≤ batch.weigh weight := by
    intro batch position stage later hstage hless
    have := weigh_setStage weight later hstage
    omega
  cases hturn with
  | idle | shared => exact Nat.le_refl _
  | asked _ hstage hasks htold => exact hmoved hstage (hw.asked hasks htold)
  | refused _ hstage =>
    exact Nat.le_trans (weigh_halt_le hw _) (hmoved hstage (hw.drops _))
  | collected _ hstage => exact hmoved hstage (hw.collects _ _)
  | failed | abandoned => exact weigh_halt_le hw _
  | ended hruns => exact hmoved (stage?_eq_some.mpr ⟨_, hruns⟩) (hw.ends _)

end Weights

/-! ## Unfinished batches -/

section Progress

variable {batch : Batch} {position : Nat} {stage : Stage}

theorem not_unfinished : ¬ batch.Unfinished ↔
    batch.running = [] ∧ (batch.interest = .active → batch.answer? ≠ none) := by
  rw [Unfinished, not_or, not_and, not_ne_iff]

theorem stage_ne_running (hidle : batch.running = [])
    (hstage : batch.stage? position = some stage) : stage ≠ .running := by
  rintro rfl
  have hruns := mem_running.mpr hstage
  rw [hidle] at hruns
  cases hruns

/-- A plan of a finished batch neither has a permit nor wants one. -/
theorem Placed.stands_of_finished (hp : batch.Placed) (hs : batch.Settled)
    (hfinished : ¬ batch.Unfinished) (hstage : batch.stage? position = some stage) :
    batch.pool.holds position = 0 ∧ batch.pool.wants position = 0 := by
  obtain ⟨hidle, hanswered⟩ := not_unfinished.mp hfinished
  have hrunning := stage_ne_running hidle hstage
  have hstands := hp.stands position stage hstage
  by_cases hactive : batch.interest = .active
  · have hcollected : ¬ ∀ rowSet, stage ≠ .collected rowSet := fun hother =>
      hanswered hactive ((answer?_eq_none hactive).mpr ⟨position, stage, hstage, hother⟩)
    cases stage with
    | collected => exact hstands
    | queued | waiting | running | ended | dropped => exact absurd nofun hcollected
  · have hunheard := hs.unheard hactive position stage hstage
    cases stage with
    | ended | dropped => exact hstands
    | running => exact absurd rfl hrunning
    | queued | waiting | collected => cases hunheard

/-- All permits of a pool that nobody else uses are back when a batch is finished. -/
theorem Placed.available_of_finished (hp : batch.Placed) (hs : batch.Settled)
    (halone : batch.Alone) (hfinished : ¬ batch.Unfinished) :
    batch.pool.available = batch.pool.capacity := by
  refine hp.balanced.complete fun client => ?_
  rcases Nat.lt_or_ge client batch.tasks.length with hlt | hbeyond
  · obtain ⟨stage, hstage⟩ := exists_stage hlt
    exact hp.stands_of_finished hs hfinished hstage
  · exact halone client hbeyond

theorem Sole.step (h : batch.Sole) (event : BatchEvent) : (batch.step event).Sole := by
  have hturn : Turn batch (.own event) (batch.step event) := turn (.own event)
  exact ⟨hturn.placed h.placed, hturn.settled h.settled, hturn.alone h.placed h.alone nofun,
    (hturn.isOpen_eq h.placed nofun).trans h.isOpen, hturn.capacity_eq h.placed ▸ h.capacity_pos⟩

theorem Sole.after (h : batch.Sole) (events : List BatchEvent) : (batch.after events).Sole := by
  induction events generalizing batch with
  | nil => exact h
  | cons event events ih => exact ih (h.step event)

/-- Some plan that waits has been passed a permit, if none runs. -/
theorem Sole.exists_granted (h : batch.Sole) (hidle : batch.running = [])
    (hwaits : batch.stage? position = some .waiting) :
    ∃ granted ∈ batch.pool.granted, batch.stage? granted = some .waiting := by
  have hb := h.placed.balanced
  have hheld : batch.pool.held = [] := List.eq_nil_iff_forall_not_mem.mpr fun client hheld =>
    stage_ne_running hidle
      (h.placed.running_of_holds h.alone (Pool.holds_of_mem hb hheld).1) rfl
  cases hgranted : batch.pool.granted with
  | cons client =>
    have hmem : client ∈ batch.pool.granted := hgranted ▸ List.mem_cons_self
    exact ⟨client, List.mem_cons_self,
      h.placed.waiting_of_wants h.alone (Pool.wants_of_mem hb (.inl hmem)).2⟩
  | nil =>
    have hwants : batch.pool.wants position = 1 := (h.placed.stands position .waiting hwaits).2
    rw [Pool.wants, hgranted, List.count_nil, Nat.zero_add] at hwants
    have hwaiting : position ∈ batch.pool.waiting := List.count_pos_iff.mp (hwants ▸ Nat.one_pos)
    have hspent := hb.spent h.isOpen (List.ne_nil_of_mem hwaiting)
    have htotal := hb.total
    rw [hheld, hgranted, hspent] at htotal
    exact absurd htotal.symm (Nat.ne_of_gt h.capacity_pos)

/-- A plan that moves on brings its batch closer to its end. -/
theorem remaining_setStage_lt {later : Stage} (hstage : batch.stage? position = some stage)
    (hless : later.rest < stage.rest) :
    (batch.setStage position later).remaining < batch.remaining := by
  have hweigh := weigh_setStage Stage.rest later hstage
  unfold remaining
  omega

/-- A batch that has an open pool for itself is not stuck: unless it is finished, asking a plan or
ending a run brings it closer to its end. -/
theorem Sole.live (h : batch.Sole) (hunfinished : batch.Unfinished) :
    ∃ event, event ≠ .abandon ∧ (batch.step event).remaining < batch.remaining := by
  by_cases hidle : batch.running = []
  case neg =>
    obtain ⟨position, hruns⟩ := List.exists_mem_of_ne_nil _ hidle
    have hstage := mem_running.mp hruns
    obtain ⟨plan, htask⟩ := stage?_eq_some.mp hstage
    refine ⟨.finish position, nofun, ?_⟩
    rw [Batch.step, finish_eq_advance htask]
    exact remaining_setStage_lt hstage (Nat.lt_succ_self 1)
  obtain ⟨hactive, hnone⟩ := hunfinished.resolve_left (not_not_intro hidle)
  obtain ⟨position, stage, hstage, hother⟩ := (answer?_eq_none hactive).mp hnone
  cases stage with
  | collected rowSet => exact absurd rfl (hother rowSet)
  | running => exact absurd rfl (stage_ne_running hidle hstage)
  | dropped => exact absurd hstage (h.settled.heard hactive position)
  | ended result =>
    refine ⟨.poll position, nofun, ?_⟩
    rw [Batch.step, poll_of_ended hactive hstage]
    cases result with
    | ok => exact remaining_setStage_lt hstage Nat.one_pos
    | error => exact weigh_halt_lt Stage.descends_rest _ hstage Nat.one_pos
  | queued =>
    refine ⟨.poll position, nofun, ?_⟩
    obtain ⟨later, htold⟩ :=
      Option.ne_none_iff_exists'.mp (h.placed.told_of_open h.isOpen hstage rfl)
    rw [Batch.step, poll_eq_advance hactive hstage rfl htold]
    rcases Stage.ofAnswer?_eq_some.mp htold with ⟨-, rfl⟩ | ⟨-, rfl⟩ <;>
      exact remaining_setStage_lt hstage (by decide)
  | waiting =>
    -- a plan that has been passed a permit runs when it is asked, and there is one
    obtain ⟨granted, hgranted, hwaits⟩ := h.exists_granted hidle hstage
    refine ⟨.poll granted, nofun, ?_⟩
    have htold := congrArg Stage.ofAnswer?
      (Pool.poll_of_granted h.placed.balanced h.isOpen hgranted)
    rw [Batch.step, poll_eq_advance hactive hwaits rfl htold]
    exact remaining_setStage_lt hwaits (Nat.lt_succ_self 2)

/-- There are always events that finish a batch that has an open pool for itself. -/
theorem Sole.exists_finished (h : batch.Sole) :
    ∃ events, .abandon ∉ events ∧ ¬ (batch.after events).Unfinished := by
  induction hremaining : batch.remaining using Nat.strongRecOn generalizing batch with
  | _ remaining ih =>
    by_cases hunfinished : batch.Unfinished
    · obtain ⟨event, hevent, hless⟩ := h.live hunfinished
      obtain ⟨events, hevents, hfinished⟩ := ih _ (hremaining ▸ hless) (h.step event) rfl
      exact ⟨event :: events, List.not_mem_cons_of_ne_of_not_mem hevent.symm hevents, hfinished⟩
    · exact ⟨[], List.not_mem_nil, hunfinished⟩

end Progress

end Batch
end NestedSql
