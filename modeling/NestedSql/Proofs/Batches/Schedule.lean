import NestedSql.Proofs.Batches.Progress

/-!
# The schedule of a batch

Asking every plan in turn and then ending every run in turn, as many times as there are plans and
once more, answers a batch that has an open pool for itself. A plan that has been asked runs, has
been collected, or waits behind plans that run, so that every round ends a run or brings the answer.
-/

namespace NestedSql

/-- One for a plan whose run is still to end. -/
def Stage.due : Stage → Nat
  | .queued | .waiting | .running => 1
  | .ended _ | .collected _ | .dropped => 0

theorem Stage.due_le_one (stage : Stage) : stage.due ≤ 1 := by
  cases stage with
  | queued | waiting | running => exact Nat.le_refl 1
  | ended | collected | dropped => exact Nat.zero_le 1

theorem Stage.descends_due : Stage.Descends Stage.due where
  waits := Nat.le_refl 1
  runs := Nat.le_refl 1
  ends _ := Nat.zero_le 1
  collects _ _ := Nat.le_refl 0
  drops _ := Nat.zero_le _

namespace Batch

/-- A plan that has been asked runs, has been collected, or waits without a permit. -/
def Asked (batch : Batch) (position : Nat) : Prop :=
  ∀ stage, batch.stage? position = some stage → stage = .running ∨
    (∃ rowSet, stage = .collected rowSet) ∨ stage = .waiting ∧ position ∈ batch.pool.waiting

section Rounds

variable {batch next : Batch} {position other : Nat} {events : List BatchEvent}

theorem after_append (later : List BatchEvent) :
    batch.after (events ++ later) = (batch.after events).after later := List.foldl_append

theorem after_eq_along : batch.after events = batch.along (events.map .own) := by
  rw [along, List.foldl_map]
  rfl

theorem length_tasks_after : (batch.after events).tasks.length = batch.tasks.length := by
  rw [length_tasks, after_eq_along, plans_along, length_tasks]

theorem abandon_notMem_round (size : Nat) : .abandon ∉ round size := by
  simp [round]

theorem active_of_after (h : (batch.after events).interest = .active) :
    batch.interest = .active := by
  induction events generalizing batch with
  | nil => exact h
  | cons event events ih => exact (turn (.own event)).active (ih h)

theorem not_abandoned_after (hevents : .abandon ∉ events) (h : batch.interest ≠ .abandoned) :
    (batch.after events).interest ≠ .abandoned := by
  induction events generalizing batch with
  | nil => exact h
  | cons event events ih =>
    obtain ⟨hevent, hothers⟩ := not_or.mp (mt List.mem_cons.mpr hevents)
    refine ih hothers ((turn (.own event)).not_abandoned (fun heq => ?_) h)
    exact hevent (Move.own.inj heq).symm

theorem answer?_after (hevents : .abandon ∉ events)
    {answer : Except ExecutionError (List RowSet)} (h : batch.answer? = some answer) :
    (batch.after events).answer? = some answer := by
  induction events generalizing batch with
  | nil => exact h
  | cons event events ih =>
    obtain ⟨hevent, hothers⟩ := not_or.mp (mt List.mem_cons.mpr hevents)
    refine ih hothers ((turn (.own event)).answer?_eq (fun heq => ?_) h)
    exact hevent (Move.own.inj heq).symm

theorem weigh_after_le {weight : Stage → Nat} (hw : Stage.Descends weight) (batch : Batch)
    (events : List BatchEvent) :
    (batch.after events).weigh weight ≤ batch.weigh weight := by
  induction events generalizing batch with
  | nil => exact Nat.le_refl _
  | cons event events ih =>
    exact Nat.le_trans (ih (batch.step event)) ((turn (.own event)).weigh_le hw)

/-- Asking another plan leaves a plan that has been asked where it is. -/
theorem Turn.asked_of_ne (hturn : Turn batch (.own (.poll position)) next) (hp : batch.Placed)
    (hactive : next.interest = .active) (hne : position ≠ other) (hasked : batch.Asked other) :
    next.Asked other := by
  cases hturn with
  | idle => exact hasked
  | asked _ _ _ htold =>
    intro stage hstage
    rw [stage?_advance, if_neg hne] at hstage
    have hanswer := (Stage.ofAnswer?_eq_some.mp htold).imp And.left And.left
    have hwaiting := (Pool.turn hp.balanced _).waiting_subset hanswer
    exact (hasked stage hstage).imp_right (Or.imp_right (And.imp_right (hwaiting ·)))
  | collected =>
    intro stage hstage
    rw [stage?_setStage, if_neg hne] at hstage
    exact hasked stage hstage
  | refused | failed => cases hactive
  | ended _ hyields => rcases hyields with ⟨hmove, -⟩ | ⟨_, hmove, -⟩ <;> cases hmove

theorem Sole.asked_self (h : batch.Sole) (hactive : (batch.poll position).interest = .active) :
    (batch.poll position).Asked position := by
  have hturn : Turn batch (.own (.poll position)) (batch.poll position) := turn_poll position
  have hstill := hturn.active hactive
  intro stage hstage
  have hlt := lt_of_stage? hstage
  rw [length_tasks, hturn.plans_eq, ← length_tasks] at hlt
  obtain ⟨before, hbefore⟩ := exists_stage hlt
  obtain ⟨plan, htask⟩ := stage?_eq_some.mp hbefore
  have hmoved : ∀ {step : PoolStep Nat}, before.step? position = some step →
      stage = .running ∨ (∃ rowSet, stage = .collected rowSet) ∨
        stage = .waiting ∧ position ∈ (batch.poll position).pool.waiting := by
    intro step hasks
    obtain ⟨later, htold⟩ :=
      Option.ne_none_iff_exists'.mp (h.placed.told_of_open h.isOpen hbefore hasks)
    rw [poll_eq_advance hstill hbefore hasks htold] at hstage ⊢
    rw [stage?_advance, if_pos rfl, hbefore] at hstage
    obtain rfl := Option.some.inj hstage
    rcases Stage.ofAnswer?_eq_some.mp htold with ⟨-, rfl⟩ | ⟨hpending, rfl⟩
    · exact .inl rfl
    · exact .inr (.inr ⟨rfl, Pool.mem_waiting_of_pending (Stage.client?_of_step? hasks) hpending⟩)
  cases before with
  | queued | waiting => exact hmoved rfl
  | dropped => exact absurd hbefore (h.settled.heard hstill position)
  | running =>
    rw [poll, hstill, htask] at hstage
    exact .inl (Option.some.inj (hstage.symm.trans hbefore))
  | collected rowSet =>
    rw [poll, hstill, htask] at hstage
    exact .inr (.inl ⟨rowSet, Option.some.inj (hstage.symm.trans hbefore)⟩)
  | ended result =>
    rw [poll_of_ended hstill hbefore] at hstage hactive
    cases result with
    | ok rowSet =>
      rw [stage?_setStage, if_pos rfl, hbefore] at hstage
      exact .inr (.inl ⟨rowSet, (Option.some.inj hstage).symm⟩)
    | error => cases hactive

theorem Sole.asked_polls (h : batch.Sole) {positions : List Nat}
    (hactive : (batch.after (positions.map .poll)).interest = .active)
    (hasked : other ∈ positions ∨ batch.Asked other) :
    (batch.after (positions.map .poll)).Asked other := by
  induction positions generalizing batch with
  | nil => exact hasked.resolve_left List.not_mem_nil
  | cons position positions ih =>
    have hnext : (batch.poll position).interest = .active := active_of_after hactive
    refine ih (h.step (.poll position)) hactive ?_
    by_cases hsame : position = other
    · subst hsame
      exact .inr (h.asked_self hnext)
    · rcases hasked with hmem | hasked
      · exact .inl (List.mem_of_ne_of_mem (Ne.symm hsame) hmem)
      · exact .inr ((turn_poll position).asked_of_ne h.placed hnext hsame hasked)

theorem Sole.asked_all (h : batch.Sole)
    (hactive : (batch.after ((List.range batch.tasks.length).map .poll)).interest = .active)
    (position : Nat) :
    (batch.after ((List.range batch.tasks.length).map .poll)).Asked position := by
  by_cases hlt : position < batch.tasks.length
  · exact h.asked_polls hactive (.inl (List.mem_range.mpr hlt))
  · intro stage hstage
    exact absurd (length_tasks_after ▸ lt_of_stage? hstage) hlt

/-- When all plans have been asked, one runs or all have been collected. -/
theorem Sole.runs_or_answers (h : batch.Sole) (hactive : batch.interest = .active)
    (hasked : ∀ position, batch.Asked position) :
    batch.running ≠ [] ∨ batch.answer? ≠ none := by
  by_cases hidle : batch.running = []
  · refine .inr fun hnone => ?_
    obtain ⟨position, stage, hstage, hother⟩ := (answer?_eq_none hactive).mp hnone
    rcases hasked position stage hstage with rfl | ⟨rowSet, rfl⟩ | ⟨rfl, -⟩
    · exact stage_ne_running hidle hstage rfl
    · exact hother rowSet rfl
    · obtain ⟨granted, hgranted, hwaits⟩ := h.exists_granted hidle hstage
      rcases hasked granted .waiting hwaits with hruns | ⟨_, hcollected⟩ | ⟨-, hwaiting⟩
      · cases hruns
      · cases hcollected
      · exact Pool.notMem_granted h.placed.balanced hwaiting hgranted
  · exact .inl hidle

/-- Ending all runs ends one that is under way. -/
theorem weigh_finishes_lt {positions : List Nat}
    (hstage : batch.stage? position = some .running) (hmem : position ∈ positions) :
    (batch.after (positions.map .finish)).weigh Stage.due < batch.weigh Stage.due := by
  induction positions generalizing batch with
  | nil => cases hmem
  | cons first positions ih =>
    by_cases hsame : position = first
    · subst hsame
      obtain ⟨plan, htask⟩ := stage?_eq_some.mp hstage
      have hended : (batch.finish position).weigh Stage.due + 1 = batch.weigh Stage.due := by
        rw [finish_eq_advance htask]
        exact weigh_setStage Stage.due _ hstage
      have hlater := weigh_after_le Stage.descends_due (batch.finish position)
        (positions.map .finish)
      exact Nat.lt_of_le_of_lt hlater (hended ▸ Nat.lt_succ_self _)
    · have hstill : (batch.finish first).stage? position = some .running := by
        unfold finish
        split
        · rw [stage?_setStage, if_neg (Ne.symm hsame)]
          exact hstage
        · exact hstage
      have hlater := ih hstill (List.mem_of_ne_of_mem hsame hmem)
      exact Nat.lt_of_lt_of_le hlater ((turn_finish first).weigh_le Stage.descends_due)

/-- A round brings the answer or ends a run. -/
theorem Sole.round (h : batch.Sole) (hactive : batch.interest = .active) :
    let next := batch.after (round batch.tasks.length)
    next.answer? ≠ none ∨
      next.interest = .active ∧ next.weigh Stage.due < batch.weigh Stage.due := by
  intro next
  have hkept := not_abandoned_after (abandon_notMem_round batch.tasks.length)
    (hactive ▸ nofun : batch.interest ≠ .abandoned)
  cases hinterest : next.interest with
  | abandoned => exact absurd hinterest hkept
  | failed => exact .inl (answer?_of_failed hinterest ▸ nofun)
  | active =>
    have hnext : next = (batch.after ((List.range batch.tasks.length).map .poll)).after
        ((List.range batch.tasks.length).map .finish) := after_append _
    have hmid := active_of_after (hnext ▸ hinterest)
    rcases (h.after _).runs_or_answers hmid (h.asked_all hmid) with hruns | hanswered
    · obtain ⟨position, hruns⟩ := List.exists_mem_of_ne_nil _ hruns
      have hstage := mem_running.mp hruns
      have hmem := List.mem_range.mpr (length_tasks_after ▸ lt_of_stage? hstage)
      refine .inr ⟨rfl, hnext ▸ ?_⟩
      exact Nat.lt_of_lt_of_le (weigh_finishes_lt hstage hmem)
        (weigh_after_le Stage.descends_due _ _)
    · obtain ⟨answer, hanswer⟩ := Option.ne_none_iff_exists'.mp hanswered
      rw [hnext, answer?_after (by simp) hanswer]
      exact .inl nofun

theorem Sole.rounds (h : batch.Sole) (hactive : batch.interest = .active) (count : Nat) :
    let next := batch.after ((List.range count).flatMap fun _ => Batch.round batch.tasks.length)
    next.answer? ≠ none ∨
      next.interest = .active ∧ next.weigh Stage.due + count ≤ batch.weigh Stage.due := by
  induction count with
  | zero => exact .inr ⟨hactive, Nat.le_refl _⟩
  | succ count ih =>
    rw [List.range_succ, List.flatMap_append, List.flatMap_singleton]
    dsimp only at ih ⊢
    rw [after_append]
    rcases ih with hanswered | ⟨hstill, hless⟩
    · obtain ⟨answer, hanswer⟩ := Option.ne_none_iff_exists'.mp hanswered
      rw [answer?_after (abandon_notMem_round _) hanswer]
      exact .inl nofun
    · have hround := (h.after ((List.range count).flatMap fun _ =>
        Batch.round batch.tasks.length)).round hstill
      rw [length_tasks_after] at hround
      refine hround.imp_right fun ⟨hlater, hlighter⟩ => ⟨hlater, ?_⟩
      omega

/-- The schedule answers a batch that has an open pool for itself. -/
theorem Sole.answer?_schedule (h : batch.Sole) (hactive : batch.interest = .active) :
    (batch.after (schedule batch.tasks.length)).answer? = some batch.run := by
  have hanswered : (batch.after (schedule batch.tasks.length)).answer? ≠ none := by
    refine (h.rounds hactive (batch.tasks.length + 1)).resolve_right fun ⟨_, hless⟩ => ?_
    have hmost : batch.weigh Stage.due ≤ batch.tasks.length :=
      weigh_le_length Stage.due_le_one
    omega
  obtain ⟨answer, hanswer⟩ := Option.ne_none_iff_exists'.mp hanswered
  rw [run, hanswer, Option.getD_some]

end Rounds

end Batch

end NestedSql
