import NestedSql.Proofs.Pool.Steps

/-!
# Conservation of permits

A pool neither loses nor invents permits, whatever its clients do and in whatever order. While it is
open nobody waits in vain: who waits has been passed a permit or all permits are out. Once it is
closed it only takes permits back, and it has all of them when nobody is left.
-/

namespace NestedSql.Pool

variable {Client : Type} [DecidableEq Client]

/-- A client was told during a run that it is gone. -/
def Left (told : List (PoolStep Client × PoolAnswer)) (client : Client) : Prop :=
  ∃ answer : PoolAnswer, answer.ends = true ∧ WasTold told client answer

/-- What a pool that is closed comes to after some steps. -/
structure Drains (pool : Pool Client) (steps : List (PoolStep Client)) : Prop where
  lends_none : ∀ step client, client ∈ ((pool.after steps).step step).1.held →
    client ∈ (pool.after steps).held
  refuses_waiting : ∀ client ∈ (pool.after steps).waiting,
    (pool.after steps).poll client =
      ({ pool.after steps with waiting := (pool.after steps).waiting.erase client }, .refused)
  refuses_granted : ∀ client ∈ (pool.after steps).granted,
    (pool.after steps).poll client =
      ({ pool.after steps with
          granted := (pool.after steps).granted.erase client
          available := (pool.after steps).available + 1 }, .refused)
  complete : (∀ client, pool.knows client = true → Left (pool.told steps) client) →
    (pool.after steps).available = pool.capacity

section Closed

variable {pool next : Pool Client} {step : PoolStep Client} {answer : PoolAnswer} {client : Client}

/-- A closed pool neither lends nor lets anybody wait. -/
theorem Turn.of_closed (h : Turn pool step next answer) (hclosed : pool.isOpen = false)
    (client : Client) : next.holds client ≤ pool.holds client ∧
      next.wants client ≤ pool.wants client := by
  have herase : ∀ (clients : List Client) (gone : Client),
      (clients.erase gone).count client ≤ clients.count client :=
    fun clients gone => List.erase_sublist.count_le client
  cases h with
  | unchanged => exact ⟨Nat.le_refl _, Nat.le_refl _⟩
  | closed => exact ⟨Nat.le_refl _, Nat.le_refl _⟩
  | lent hopen | queued hopen | claimed _ hopen => rw [hclosed] at hopen; cases hopen
  | forgone =>
    rw [holds_giveBack, wants_giveBack]
    exact ⟨Nat.le_refl _, Nat.add_le_add_right (herase _ _) _⟩
  | left => exact ⟨Nat.le_refl _, Nat.add_le_add_left (herase _ _) _⟩
  | returned =>
    rw [holds_giveBack, wants_giveBack]
    exact ⟨herase _ _, Nat.le_refl _⟩

theorem isOpen_after (hb : pool.Balanced) (hclosed : pool.isOpen = false)
    (steps : List (PoolStep Client)) : (pool.after steps).isOpen = false := by
  cases hopen : (pool.after steps).isOpen with
  | false => rfl
  | true => rw [isOpen_of_after hb hopen] at hclosed; cases hclosed

theorem after_of_closed (hb : pool.Balanced) (hclosed : pool.isOpen = false)
    (steps : List (PoolStep Client)) (client : Client) :
    (pool.after steps).holds client ≤ pool.holds client ∧
      (pool.after steps).wants client ≤ pool.wants client := by
  induction steps generalizing pool with
  | nil => exact ⟨Nat.le_refl _, Nat.le_refl _⟩
  | cons step steps ih =>
    obtain ⟨hholds, hwants⟩ := (turn hb step).of_closed hclosed client
    obtain ⟨hlater, hlaterWants⟩ :=
      ih (balanced_step hb step) (isOpen_after hb hclosed [step])
    exact ⟨Nat.le_trans hlater hholds, Nat.le_trans hlaterWants hwants⟩

/-- Who is told to be gone by a closed pool does not come back. -/
theorem gone_of_left (hb : pool.Balanced) (hclosed : pool.isOpen = false)
    {steps : List (PoolStep Client)} (h : Left (pool.told steps) client) :
    (pool.after steps).holds client = 0 ∧ (pool.after steps).wants client = 0 := by
  induction steps generalizing pool with
  | nil =>
    obtain ⟨answer, -, entry, hentry, -⟩ := h
    cases hentry
  | cons step steps ih =>
    have hnext := balanced_step hb step
    have hstays := isOpen_after hb hclosed [step]
    obtain ⟨answer, hends, htold⟩ := h
    rw [told_cons, wasTold_cons] at htold
    rcases htold with ⟨hclient, rfl⟩ | htold
    · obtain ⟨hholds, hwants⟩ := (turn hb step).stands hb hclient
      obtain ⟨hnone, hnoneWanted⟩ := PoolAnswer.stands_of_ends hends
      obtain ⟨hlater, hlaterWants⟩ := after_of_closed hnext hstays steps client
      rw [hholds, hnone] at hlater
      rw [hwants, hnoneWanted] at hlaterWants
      exact ⟨Nat.le_zero.mp hlater, Nat.le_zero.mp hlaterWants⟩
    · exact ih hnext hstays ⟨answer, hends, htold⟩

/-- A pool is complete when nobody holds a permit or has been passed one. -/
theorem Balanced.complete (hb : pool.Balanced)
    (hnobody : ∀ client, pool.holds client = 0 ∧ pool.wants client = 0) :
    pool.available = pool.capacity := by
  have hheld : pool.held = [] := List.eq_nil_iff_forall_not_mem.mpr fun client =>
    holds_eq_zero.mp (hnobody client).1
  have hgranted : pool.granted = [] := List.eq_nil_iff_forall_not_mem.mpr fun client =>
    (wants_eq_zero.mp (hnobody client).2).1
  have htotal := hb.total
  rw [hheld, hgranted] at htotal
  exact htotal

theorem drains (hb : pool.Balanced) (hclosed : pool.isOpen = false)
    (steps : List (PoolStep Client)) : pool.Drains steps := by
  have hlast := balanced_after hb steps
  have hstays := isOpen_after hb hclosed steps
  refine ⟨?lends_none, ?waiting, ?granted, ?complete⟩
  case lends_none =>
    intro step client hheld
    have hpos := List.count_pos_iff.mpr hheld
    have hless := ((turn hlast step).of_closed hstays client).1
    exact List.count_pos_iff.mp (Nat.lt_of_lt_of_le hpos hless)
  case waiting =>
    intro client hwaiting
    have hheld := holds_eq_zero.mp (wants_of_mem hlast (.inr hwaiting)).1
    simp [poll, hheld, notMem_granted hlast hwaiting, hwaiting, hstays]
  case granted =>
    intro client hgranted
    have hheld := holds_eq_zero.mp (wants_of_mem hlast (.inl hgranted)).1
    simp [poll, hheld, hgranted, hstays, giveBack_of_closed]
  case complete =>
    intro hleft
    rw [← capacity_after hb steps]
    refine hlast.complete fun client => ?_
    cases hknown : pool.knows client with
    | true => exact gone_of_left hb hclosed (hleft client hknown)
    | false =>
      obtain ⟨hholds, hwants⟩ := knows_eq_false.mp hknown
      obtain ⟨hlater, hlaterWants⟩ := after_of_closed hb hclosed steps client
      omega

end Closed

/-- The permits of a pool of any size are conserved along every run. No more are lent than it has,
nobody who waits without a permit is passed over while one is free, and a pool that is closed lends
none, refuses all who ask again, and is complete when all it knew are gone. -/
theorem permits_conserved (size : Nat) (steps : List (PoolStep Client)) :
    let pool := (ofSize size : Pool Client).after steps
    pool.capacity = max size 1 ∧
      pool.available + pool.held.length + pool.granted.length = pool.capacity ∧
      pool.available ≤ pool.capacity ∧ pool.held.length ≤ pool.capacity ∧
      (pool.isOpen = true → ∀ client ∈ pool.waiting, pool.available = 0) ∧
      (pool.isOpen = false → ∀ later, pool.Drains later) := by
  have hb := balanced_after (balanced_ofSize size) steps
  have htotal := hb.total
  refine ⟨capacity_after (balanced_ofSize size) steps, htotal, by omega, by omega, ?_, ?_⟩
  · intro hopen client hwaiting
    exact hb.spent hopen (List.ne_nil_of_mem hwaiting)
  · exact fun hclosed later => drains hb hclosed later

/-- A closed pool gets the permit back that it had passed to a client, when that client asks. -/
theorem closed_pool_of_one_completes :
    let pool := (ofSize 0 : Pool Nat).after [.acquire 0, .acquire 1, .release 0, .close]
    (pool.granted = [1] ∧ pool.available = 0 ∧ pool.isOpen = false) ∧
      (pool.after [.poll 1]).available = 1 := by
  intro pool
  have hconserved := permits_conserved 0
    ([.acquire 0, .acquire 1, .release 0, .close] : List (PoolStep Nat))
  refine ⟨by decide, ?_⟩
  refine (hconserved.2.2.2.2.2 rfl [.poll 1]).complete fun client hknown => ?_
  have hpool : pool = ⟨1, 0, [], [1], [], false⟩ := by decide
  have hclient : client = 1 := by
    change pool.knows client = true at hknown
    simpa [hpool, knows] using hknown
  subst hclient
  exact ⟨.refused, rfl, by decide⟩

end NestedSql.Pool
