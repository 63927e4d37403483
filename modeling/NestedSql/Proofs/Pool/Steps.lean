import NestedSql.Pool.Basic

/-!
# Steps of a pool

What one step of a client comes to. After a step its client stands where the answer says, and every
other client holds and wants what it held and wanted before; one that waits may have been passed a
permit. All permits are accounted for: they are free, held, or passed to a client that has not
asked since.
-/

namespace NestedSql

/-- The client of a step; nobody in particular closes a pool. -/
def PoolStep.client? {Client : Type} : PoolStep Client → Option Client
  | .acquire client | .poll client | .release client => some client
  | .close => none

namespace PoolAnswer

/-- The permits that a client holds after an answer. -/
def holds : PoolAnswer → Nat
  | .held => 1
  | _ => 0

/-- The permits that a client waits for after an answer. -/
def wants : PoolAnswer → Nat
  | .pending => 1
  | _ => 0

/-- The client is gone. -/
def ends : PoolAnswer → Bool
  | .refused | .released | .cancelled => true
  | _ => false

theorem stands_of_ends {answer : PoolAnswer} (h : answer.ends = true) :
    answer.holds = 0 ∧ answer.wants = 0 := by
  cases answer with
  | held | pending | absent | closed => cases h
  | refused | released | cancelled => exact ⟨rfl, rfl⟩

end PoolAnswer

namespace Pool

/-! ## A permit that comes back -/

section Lists

variable {Client : Type} {pool : Pool Client}

/-- A permit that comes back is passed to the first in line of an open pool; it stays in a pool that
is closed or has nobody waiting. -/
theorem giveBack_cases (pool : Pool Client) :
    (∃ client waiting, pool.isOpen = true ∧ pool.waiting = client :: waiting ∧
      pool.giveBack = { pool with waiting := waiting, granted := pool.granted ++ [client] }) ∨
    (pool.isOpen = true → pool.waiting = []) ∧
      pool.giveBack = { pool with available := pool.available + 1 } := by
  unfold giveBack
  split
  · next client waiting hopen hwaiting => exact .inl ⟨client, waiting, hopen, hwaiting, rfl⟩
  · next hnone =>
    refine .inr ⟨fun hopen => ?_, rfl⟩
    cases hwaiting : pool.waiting with
    | nil => rfl
    | cons client waiting => exact absurd hwaiting (hnone client waiting hopen)

@[simp] theorem capacity_giveBack : pool.giveBack.capacity = pool.capacity := by
  rcases giveBack_cases pool with ⟨_, _, _, _, h⟩ | ⟨_, h⟩ <;> rw [h]

@[simp] theorem isOpen_giveBack : pool.giveBack.isOpen = pool.isOpen := by
  rcases giveBack_cases pool with ⟨_, _, _, _, h⟩ | ⟨_, h⟩ <;> rw [h]

@[simp] theorem held_giveBack : pool.giveBack.held = pool.held := by
  rcases giveBack_cases pool with ⟨_, _, _, _, h⟩ | ⟨_, h⟩ <;> rw [h]

/-- A permit that comes back to a closed pool stays there. -/
theorem giveBack_of_closed (h : pool.isOpen = false) :
    pool.giveBack = { pool with available := pool.available + 1 } := by
  rcases giveBack_cases pool with ⟨_, _, hopen, _, _⟩ | ⟨_, hgiven⟩
  · rw [h] at hopen
    cases hopen
  · exact hgiven

/-! ## What clients are told -/

/-- A client was told something in the course of a run. -/
def WasTold (told : List (PoolStep Client × PoolAnswer)) (client : Client) (answer : PoolAnswer) :
    Prop :=
  ∃ entry ∈ told, entry.1.client? = some client ∧ entry.2 = answer

instance [DecidableEq Client] {told : List (PoolStep Client × PoolAnswer)} {client : Client}
    {answer : PoolAnswer} : Decidable (WasTold told client answer) :=
  inferInstanceAs (Decidable (∃ entry ∈ told, entry.1.client? = some client ∧ entry.2 = answer))

theorem wasTold_cons {client : Client} {answer : PoolAnswer} {entry : PoolStep Client × PoolAnswer}
    {told : List (PoolStep Client × PoolAnswer)} : WasTold (entry :: told) client answer ↔
      entry.1.client? = some client ∧ entry.2 = answer ∨ WasTold told client answer := by
  simp only [WasTold, List.mem_cons, or_and_right, exists_or, exists_eq_left]

theorem wasTold_append {client : Client} {answer : PoolAnswer}
    {told later : List (PoolStep Client × PoolAnswer)} : WasTold (told ++ later) client answer ↔
      WasTold told client answer ∨ WasTold later client answer := by
  simp only [WasTold, List.mem_append, or_and_right, exists_or]

end Lists

/-! ## Where clients stand -/

variable {Client : Type} [DecidableEq Client]

/-- The permits that a client holds. -/
def holds (pool : Pool Client) (client : Client) : Nat := pool.held.count client

/-- The permits that a client waits for, or has been passed and not asked for since. -/
def wants (pool : Pool Client) (client : Client) : Nat :=
  pool.granted.count client + pool.waiting.count client

/-- All permits are accounted for, and no client stands at two places. -/
structure Balanced (pool : Pool Client) : Prop where
  total : pool.available + pool.held.length + pool.granted.length = pool.capacity
  once : ∀ client, pool.holds client + pool.wants client ≤ 1
  spent : pool.isOpen = true → pool.waiting ≠ [] → pool.available = 0

/-- What a step comes to, with the pool after it and what its client is told. -/
inductive Turn (pool : Pool Client) : PoolStep Client → Pool Client → PoolAnswer → Prop where
  | unchanged {step client answer} (asks : step.client? = some client)
      (stands : pool.holds client = answer.holds ∧ pool.wants client = answer.wants) :
      Turn pool step pool answer
  | lent {client} (isOpen : pool.isOpen = true) (free : 0 < pool.available)
      (unknown : pool.holds client + pool.wants client = 0) :
      Turn pool (.acquire client)
        { pool with available := pool.available - 1, held := pool.held ++ [client] } .held
  | queued {client} (isOpen : pool.isOpen = true) (none : pool.available = 0)
      (unknown : pool.holds client + pool.wants client = 0) :
      Turn pool (.acquire client) { pool with waiting := pool.waiting ++ [client] } .pending
  | claimed {step client} (asks : step.client? = some client) (isOpen : pool.isOpen = true)
      (granted : client ∈ pool.granted) :
      Turn pool step
        { pool with granted := pool.granted.erase client, held := pool.held ++ [client] } .held
  | forgone {step client answer} (asks : step.client? = some client)
      (leaves : answer = .cancelled ∨ answer = .refused ∧ pool.isOpen = false)
      (granted : client ∈ pool.granted) :
      Turn pool step { pool with granted := pool.granted.erase client }.giveBack answer
  | left {step client answer} (asks : step.client? = some client)
      (leaves : answer = .cancelled ∨ answer = .refused ∧ pool.isOpen = false)
      (waiting : client ∈ pool.waiting) :
      Turn pool step { pool with waiting := pool.waiting.erase client } answer
  | returned {client} (held : client ∈ pool.held) :
      Turn pool (.release client) { pool with held := pool.held.erase client }.giveBack .released
  | closed : Turn pool .close pool.close .closed

section Steps

variable {pool next : Pool Client} {step : PoolStep Client} {answer : PoolAnswer}
  {client other : Client}

theorem holds_eq_zero : pool.holds client = 0 ↔ client ∉ pool.held := List.count_eq_zero

theorem wants_eq_zero :
    pool.wants client = 0 ↔ client ∉ pool.granted ∧ client ∉ pool.waiting := by
  rw [wants, Nat.add_eq_zero_iff, List.count_eq_zero, List.count_eq_zero]

@[simp] theorem holds_giveBack : pool.giveBack.holds client = pool.holds client := by
  rw [holds, held_giveBack, holds]

/-- The client that is passed a permit wants it as before. -/
@[simp] theorem wants_giveBack : pool.giveBack.wants client = pool.wants client := by
  rcases giveBack_cases pool with ⟨first, waiting, _, hwaiting, h⟩ | ⟨_, h⟩
  · simp only [wants, h, hwaiting, List.count_append, List.count_cons, List.count_nil]
    omega
  · rw [h, wants, wants]

theorem holds_of_mem (hb : pool.Balanced) (h : client ∈ pool.held) :
    pool.holds client = 1 ∧ pool.wants client = 0 := by
  have hpos := List.count_pos_iff.mpr h
  have honce := hb.once client
  unfold holds at *
  omega

theorem wants_of_mem (hb : pool.Balanced) (h : client ∈ pool.granted ∨ client ∈ pool.waiting) :
    pool.holds client = 0 ∧ pool.wants client = 1 := by
  have hpos : 0 < pool.wants client := Nat.pos_of_ne_zero fun hzero => by
    have hnone := wants_eq_zero.mp hzero
    exact h.elim hnone.1 hnone.2
  have honce := hb.once client
  omega

/-- Who has been passed a permit waits for no other. -/
theorem notMem_granted (hb : pool.Balanced) (h : client ∈ pool.waiting) :
    client ∉ pool.granted := by
  intro hgranted
  have hwants := (wants_of_mem hb (.inr h)).2
  have hpos := List.count_pos_iff.mpr h
  have hposGranted := List.count_pos_iff.mpr hgranted
  unfold wants at hwants
  omega

theorem poll_of_granted (hb : pool.Balanced) (hopen : pool.isOpen = true)
    (h : client ∈ pool.granted) : (pool.poll client).2 = .held := by
  have hheld := holds_eq_zero.mp (wants_of_mem hb (.inl h)).1
  simp [poll, hheld, h, hopen]

theorem poll_of_waiting (hb : pool.Balanced) (hopen : pool.isOpen = true)
    (h : client ∈ pool.waiting) : pool.poll client = (pool, .pending) := by
  have hheld := holds_eq_zero.mp (wants_of_mem hb (.inr h)).1
  simp [poll, hheld, notMem_granted hb h, h, hopen]

/-- Whoever waits is lent a permit by an open pool, or goes on waiting. -/
theorem poll_of_open (hb : pool.Balanced) (hopen : pool.isOpen = true)
    (h : pool.wants client = 1) :
    (pool.poll client).2 = .held ∨ (pool.poll client).2 = .pending := by
  by_cases hgranted : client ∈ pool.granted
  · exact .inl (poll_of_granted hb hopen hgranted)
  · have hwaiting : client ∈ pool.waiting := by
      refine Decidable.byContradiction fun hwaiting => ?_
      rw [wants_eq_zero.mpr ⟨hgranted, hwaiting⟩] at h
      cases h
    exact .inr (congrArg Prod.snd (poll_of_waiting hb hopen hwaiting))

theorem stands_nowhere (hheld : client ∉ pool.held) (hgranted : client ∉ pool.granted)
    (hwaiting : client ∉ pool.waiting) : pool.holds client = 0 ∧ pool.wants client = 0 :=
  ⟨holds_eq_zero.mpr hheld, wants_eq_zero.mpr ⟨hgranted, hwaiting⟩⟩

theorem knows_eq_false : pool.knows client = false ↔
    pool.holds client = 0 ∧ pool.wants client = 0 := by
  rw [holds_eq_zero, wants_eq_zero, knows, decide_eq_false_iff_not, not_or, not_or]

/-- A newcomer is lent a permit by an open pool, or waits. -/
theorem acquire_of_open (hopen : pool.isOpen = true) (hunknown : pool.knows client = false) :
    (pool.acquire client).2 = .held ∨ (pool.acquire client).2 = .pending := by
  unfold acquire
  rw [hunknown, hopen]
  simp only [Bool.false_eq_true, Bool.not_true, ↓reduceIte]
  split
  · exact .inl rfl
  · exact .inr rfl

/-! ## What a step comes to -/

theorem turn_of_poll (hb : pool.Balanced) (hasks : step.client? = some client)
    (h : pool.poll client = (next, answer)) : Turn pool step next answer := by
  have hstays : ∀ {answer : PoolAnswer},
      pool.holds client = answer.holds ∧ pool.wants client = answer.wants →
        Turn pool step pool answer := .unchanged hasks
  unfold poll at h
  split at h
  case isTrue hheld =>
    obtain ⟨rfl, rfl⟩ := Prod.mk.inj h
    exact hstays (holds_of_mem hb hheld)
  split at h
  case isTrue hgranted =>
    split at h
    case isTrue hopen =>
      obtain ⟨rfl, rfl⟩ := Prod.mk.inj h
      exact .claimed hasks hopen hgranted
    case isFalse hclosed =>
      obtain ⟨rfl, rfl⟩ := Prod.mk.inj h
      exact .forgone hasks (.inr ⟨rfl, Bool.not_eq_true _ ▸ hclosed⟩) hgranted
  split at h
  case isTrue hwaiting =>
    split at h
    case isTrue hopen =>
      obtain ⟨rfl, rfl⟩ := Prod.mk.inj h
      exact hstays (wants_of_mem hb (.inr hwaiting))
    case isFalse hclosed =>
      obtain ⟨rfl, rfl⟩ := Prod.mk.inj h
      exact .left hasks (.inr ⟨rfl, Bool.not_eq_true _ ▸ hclosed⟩) hwaiting
  case isFalse hheld hgranted hwaiting =>
    obtain ⟨rfl, rfl⟩ := Prod.mk.inj h
    exact hstays (stands_nowhere hheld hgranted hwaiting)

theorem turn_of_acquire (hb : pool.Balanced) (h : pool.acquire client = (next, answer)) :
    Turn pool (.acquire client) next answer := by
  unfold acquire at h
  split at h
  case isTrue => exact turn_of_poll hb rfl h
  case isFalse hknown =>
    have hstands := knows_eq_false.mp (Bool.not_eq_true _ ▸ hknown)
    split at h
    case isTrue =>
      obtain ⟨rfl, rfl⟩ := Prod.mk.inj h
      exact .unchanged rfl hstands
    case isFalse hopen =>
      have hopen : pool.isOpen = true := by simpa using hopen
      have hunknown : pool.holds client + pool.wants client = 0 := by omega
      split at h
      case isTrue hfree =>
        obtain ⟨rfl, rfl⟩ := Prod.mk.inj h
        exact .lent hopen hfree hunknown
      case isFalse hnone =>
        obtain ⟨rfl, rfl⟩ := Prod.mk.inj h
        exact .queued hopen (Nat.eq_zero_of_not_pos hnone) hunknown

theorem turn_of_release (h : pool.release client = (next, answer)) :
    Turn pool (.release client) next answer := by
  unfold release at h
  split at h
  case isTrue hheld =>
    obtain ⟨rfl, rfl⟩ := Prod.mk.inj h
    exact .returned hheld
  split at h
  case isTrue hgranted =>
    obtain ⟨rfl, rfl⟩ := Prod.mk.inj h
    exact .forgone rfl (.inl rfl) hgranted
  split at h
  case isTrue hwaiting =>
    obtain ⟨rfl, rfl⟩ := Prod.mk.inj h
    exact .left rfl (.inl rfl) hwaiting
  case isFalse hheld hgranted hwaiting =>
    obtain ⟨rfl, rfl⟩ := Prod.mk.inj h
    exact .unchanged rfl (stands_nowhere hheld hgranted hwaiting)

theorem turn_of_step (hb : pool.Balanced) (h : pool.step step = (next, answer)) :
    Turn pool step next answer := by
  cases step with
  | acquire client => exact turn_of_acquire hb h
  | poll client => exact turn_of_poll hb rfl h
  | release client => exact turn_of_release h
  | close =>
    obtain ⟨rfl, rfl⟩ := Prod.mk.inj h
    exact .closed

theorem turn (hb : pool.Balanced) (step : PoolStep Client) :
    Turn pool step (pool.step step).1 (pool.step step).2 :=
  turn_of_step hb rfl

/-! ## Consequences -/

theorem Turn.capacity_eq (h : Turn pool step next answer) : next.capacity = pool.capacity := by
  cases h <;> simp [close]

/-- Only closing changes whether a pool is open. -/
theorem Turn.isOpen_eq (h : Turn pool step next answer) :
    next.isOpen = (pool.isOpen && step.client?.isSome) := by
  cases h with
  | closed => rw [PoolStep.client?, Option.isSome_none, Bool.and_false, close]
  | unchanged hasks | claimed hasks | forgone hasks | left hasks => simp [hasks]
  | lent | queued | returned => simp [PoolStep.client?]

/-- Where the client of a step stands is what it has been told. -/
theorem Turn.stands (h : Turn pool step next answer) (hb : pool.Balanced)
    (hclient : step.client? = some client) :
    next.holds client = answer.holds ∧ next.wants client = answer.wants := by
  cases h with
  | closed => cases hclient
  | unchanged hasks hstands =>
    obtain rfl := Option.some.inj (hasks.symm.trans hclient)
    exact hstands
  | lent _ _ hunknown =>
    obtain rfl := Option.some.inj hclient
    simp only [holds, wants, PoolAnswer.holds, PoolAnswer.wants, List.count_append,
      List.count_singleton_self] at hunknown ⊢
    omega
  | queued _ _ hunknown =>
    obtain rfl := Option.some.inj hclient
    simp only [holds, wants, PoolAnswer.holds, PoolAnswer.wants, List.count_append,
      List.count_singleton_self] at hunknown ⊢
    omega
  | claimed hasks _ hgranted =>
    obtain rfl := Option.some.inj (hasks.symm.trans hclient)
    have hstood := wants_of_mem hb (.inl hgranted)
    have hpos := List.count_pos_iff.mpr hgranted
    simp only [holds, wants, PoolAnswer.holds, PoolAnswer.wants, List.count_append,
      List.count_singleton_self, List.count_erase_self] at hstood ⊢
    omega
  | forgone hasks hleaves hgranted =>
    obtain rfl := Option.some.inj (hasks.symm.trans hclient)
    have hstood := wants_of_mem hb (.inl hgranted)
    have hpos := List.count_pos_iff.mpr hgranted
    rw [holds_giveBack, wants_giveBack]
    simp only [holds, wants, List.count_erase_self] at hstood ⊢
    rcases hleaves with rfl | ⟨rfl, -⟩ <;> simp only [PoolAnswer.holds, PoolAnswer.wants] <;> omega
  | left hasks hleaves hwaiting =>
    obtain rfl := Option.some.inj (hasks.symm.trans hclient)
    have hstood := wants_of_mem hb (.inr hwaiting)
    have hpos := List.count_pos_iff.mpr hwaiting
    simp only [holds, wants, List.count_erase_self] at hstood ⊢
    rcases hleaves with rfl | ⟨rfl, -⟩ <;> simp only [PoolAnswer.holds, PoolAnswer.wants] <;> omega
  | returned hheld =>
    obtain rfl := Option.some.inj hclient
    have hstood := holds_of_mem hb hheld
    rw [holds_giveBack, wants_giveBack]
    simp only [holds, wants, PoolAnswer.holds, PoolAnswer.wants,
      List.count_erase_self] at hstood ⊢
    omega

/-- All others stand where they stood. -/
theorem Turn.others (h : Turn pool step next answer) (hother : step.client? ≠ some other) :
    next.holds other = pool.holds other ∧ next.wants other = pool.wants other := by
  have hne : ∀ {client}, step.client? = some client → client ≠ other := by
    rintro client hclient rfl
    exact hother hclient
  cases h with
  | unchanged => exact ⟨rfl, rfl⟩
  | closed => exact ⟨rfl, rfl⟩
  | lent => simp [holds, wants, hne rfl]
  | queued => simp [holds, wants, hne rfl]
  | claimed hasks => simp [holds, wants, List.count_erase_of_ne (hne hasks).symm, hne hasks]
  | left hasks => simp [holds, wants, List.count_erase_of_ne (hne hasks).symm]
  | forgone hasks =>
    rw [holds_giveBack, wants_giveBack]
    simp [holds, wants, List.count_erase_of_ne (hne hasks).symm]
  | returned =>
    rw [holds_giveBack, wants_giveBack]
    simp [holds, wants, List.count_erase_of_ne (hne rfl).symm]

/-- A permit that was out and comes back is accounted for. -/
theorem Balanced.giveBack (htotal : pool.available + pool.held.length + pool.granted.length + 1 =
      pool.capacity) (honce : ∀ client, pool.holds client + pool.wants client ≤ 1)
    (hspent : pool.isOpen = true → pool.waiting ≠ [] → pool.available = 0) :
    pool.giveBack.Balanced := by
  have honce : ∀ client, pool.giveBack.holds client + pool.giveBack.wants client ≤ 1 := by
    simpa using honce
  rcases pool.giveBack_cases with ⟨client, waiting, hopen, hwaiting, h⟩ | ⟨hnone, h⟩
  · rw [h] at honce ⊢
    refine ⟨?_, honce, fun _ _ => hspent hopen (hwaiting ▸ List.cons_ne_nil _ _)⟩
    simp only [List.length_append, List.length_singleton]
    omega
  · rw [h] at honce ⊢
    refine ⟨?_, honce, fun hopen hwaiting => absurd (hnone hopen) hwaiting⟩
    simp only
    omega

/-- A step keeps all permits accounted for. -/
theorem Turn.balanced (h : Turn pool step next answer) (hb : pool.Balanced) : next.Balanced := by
  have honce : ∀ client, next.holds client + next.wants client ≤ 1 := by
    intro client
    by_cases hclient : step.client? = some client
    · obtain ⟨hholds, hwants⟩ := h.stands hb hclient
      cases answer <;> simp [hholds, hwants, PoolAnswer.holds, PoolAnswer.wants]
    · obtain ⟨hholds, hwants⟩ := h.others hclient
      rw [hholds, hwants]
      exact hb.once client
  obtain ⟨htotal, -, hspent⟩ := hb
  cases h with
  | unchanged => exact ⟨htotal, honce, hspent⟩
  | closed => exact ⟨htotal, honce, fun hopen => by cases hopen⟩
  | lent hopen hfree =>
    refine ⟨?_, honce, fun _ hwaiting => ?_⟩
    · simp only [List.length_append, List.length_singleton]
      omega
    · have := hspent hopen hwaiting
      omega
  | queued hopen hnone => exact ⟨htotal, honce, fun _ _ => hnone⟩
  | claimed _ hopen hgranted =>
    refine ⟨?_, honce, hspent⟩
    have := List.length_erase_of_mem hgranted
    have := List.length_pos_of_mem hgranted
    simp only [List.length_append, List.length_singleton]
    omega
  | forgone _ _ hgranted =>
    refine .giveBack ?_ (by simpa using honce) hspent
    have := List.length_erase_of_mem hgranted
    have := List.length_pos_of_mem hgranted
    simp only
    omega
  | left _ _ hwaiting =>
    exact ⟨htotal, honce, fun hopen _ => hspent hopen (List.ne_nil_of_mem hwaiting)⟩
  | returned hheld =>
    refine .giveBack ?_ (by simpa using honce) hspent
    have := List.length_erase_of_mem hheld
    have := List.length_pos_of_mem hheld
    simp only
    omega

/-! ## Runs -/

/-- The pool after some steps. -/
def after (pool : Pool Client) (steps : List (PoolStep Client)) : Pool Client :=
  steps.foldl (fun pool step => (pool.step step).1) pool

/-- The steps of a run with what their clients are told. -/
def told (pool : Pool Client) (steps : List (PoolStep Client)) :
    List (PoolStep Client × PoolAnswer) :=
  steps.zip ((pool.history steps).map Prod.snd)

@[simp] theorem told_cons (steps : List (PoolStep Client)) :
    pool.told (step :: steps) = (step, (pool.step step).2) :: (pool.step step).1.told steps := rfl

theorem told_append (steps later : List (PoolStep Client)) :
    pool.told (steps ++ later) = pool.told steps ++ (pool.after steps).told later := by
  induction steps generalizing pool with
  | nil => rfl
  | cons step steps ih => exact congrArg _ ih

theorem balanced_ofSize (size : Nat) : (ofSize size : Pool Client).Balanced :=
  ⟨rfl, fun _ => Nat.zero_le 1, fun _ hwaiting => absurd rfl hwaiting⟩

theorem balanced_step (hb : pool.Balanced) (step : PoolStep Client) : (pool.step step).1.Balanced :=
  (turn hb step).balanced hb

theorem balanced_after (hb : pool.Balanced) (steps : List (PoolStep Client)) :
    (pool.after steps).Balanced := by
  induction steps generalizing pool with
  | nil => exact hb
  | cons step steps ih => exact ih (balanced_step hb step)

theorem capacity_after (hb : pool.Balanced) (steps : List (PoolStep Client)) :
    (pool.after steps).capacity = pool.capacity := by
  induction steps generalizing pool with
  | nil => rfl
  | cons step steps ih => exact (ih (balanced_step hb step)).trans (turn hb step).capacity_eq

/-- A pool that is open now has been open before. -/
theorem isOpen_of_after (hb : pool.Balanced) {steps : List (PoolStep Client)}
    (h : (pool.after steps).isOpen = true) : pool.isOpen = true := by
  induction steps generalizing pool with
  | nil => exact h
  | cons step steps ih =>
    have hnext := ih (balanced_step hb step) h
    rw [(turn hb step).isOpen_eq, Bool.and_eq_true] at hnext
    exact hnext.1

/-! ## Clients that leave -/

theorem stands_of_release (pool : Pool Client) (client : Client) :
    (pool.release client).2.holds = 0 ∧ (pool.release client).2.wants = 0 := by
  unfold release
  split
  · exact ⟨rfl, rfl⟩
  split
  · exact ⟨rfl, rfl⟩
  split <;> exact ⟨rfl, rfl⟩

/-- Clients that leave stand nowhere, and all others where they stood. -/
theorem stands_after_releases (hb : pool.Balanced) (clients : List Client) (client : Client) :
    let last := pool.after (clients.map .release)
    (client ∈ clients → last.holds client = 0 ∧ last.wants client = 0) ∧
      (client ∉ clients →
        last.holds client = pool.holds client ∧ last.wants client = pool.wants client) := by
  induction clients generalizing pool with
  | nil => exact ⟨nofun, fun _ => ⟨rfl, rfl⟩⟩
  | cons gone clients ih =>
    obtain ⟨hgone, hothers⟩ := ih (balanced_step hb (.release gone))
    have hturn := turn hb (.release gone)
    refine ⟨fun hclient => ?_, fun hclient => ?_⟩
    · by_cases hlater : client ∈ clients
      · exact hgone hlater
      · obtain rfl := (List.mem_cons.mp hclient).resolve_right hlater
        obtain ⟨hholds, hwants⟩ := hturn.stands hb rfl
        obtain ⟨hnone, hnoneWanted⟩ := stands_of_release pool client
        obtain ⟨hlaterHolds, hlaterWants⟩ := hothers hlater
        exact ⟨hlaterHolds.trans (hholds.trans hnone), hlaterWants.trans (hwants.trans hnoneWanted)⟩
    · obtain ⟨hother, hnotLater⟩ := not_or.mp (mt List.mem_cons.mpr hclient)
      obtain ⟨hholds, hwants⟩ := hturn.others fun hasks => hother (Option.some.inj hasks).symm
      obtain ⟨hlaterHolds, hlaterWants⟩ := hothers hnotLater
      exact ⟨hlaterHolds.trans hholds, hlaterWants.trans hwants⟩

theorem isOpen_after_releases (hb : pool.Balanced) (clients : List Client) :
    (pool.after (clients.map .release)).isOpen = pool.isOpen := by
  induction clients generalizing pool with
  | nil => rfl
  | cons gone clients ih =>
    have hnext := (turn hb (.release gone)).isOpen_eq
    rw [PoolStep.client?, Option.isSome_some, Bool.and_true] at hnext
    exact (ih (balanced_step hb (.release gone))).trans hnext

/-! ## Clients that wait -/

theorem mem_waiting_of_poll (h : (pool.poll client).2 = .pending) :
    client ∈ (pool.poll client).1.waiting := by
  unfold poll at h ⊢
  split at h
  case isTrue => cases h
  case isFalse hheld =>
    rw [if_neg hheld]
    split at h
    case isTrue => split at h <;> cases h
    case isFalse hgranted =>
      rw [if_neg hgranted]
      split at h
      case isFalse => cases h
      case isTrue hwaiting =>
        rw [if_pos hwaiting]
        split at h
        case isFalse => cases h
        case isTrue hopen =>
          rw [if_pos hopen]
          exact hwaiting

/-- Who is left pending waits without a permit. -/
theorem mem_waiting_of_pending (hclient : step.client? = some client)
    (h : (pool.step step).2 = .pending) : client ∈ (pool.step step).1.waiting := by
  cases step with
  | acquire =>
    obtain rfl := Option.some.inj hclient
    simp only [Pool.step, acquire] at h ⊢
    split at h
    case isTrue hknown => rw [if_pos hknown]; exact mem_waiting_of_poll h
    case isFalse hknown =>
      rw [if_neg hknown]
      split at h
      case isTrue => cases h
      case isFalse hopen =>
        rw [if_neg hopen]
        split at h
        case isTrue => cases h
        case isFalse hnone =>
          rw [if_neg hnone]
          exact List.mem_append_right _ (List.mem_singleton_self _)
  | poll =>
    obtain rfl := Option.some.inj hclient
    exact mem_waiting_of_poll h
  | release =>
    have hwants := (stands_of_release pool _).2.symm.trans (congrArg PoolAnswer.wants h)
    cases hwants
  | close => cases hclient

/-- Who waits goes on waiting while another client is lent a permit or left pending. -/
theorem Turn.waiting_subset (hturn : Turn pool step next answer)
    (h : answer = .held ∨ answer = .pending) : pool.waiting ⊆ next.waiting := by
  cases hturn with
  | unchanged | lent | claimed => exact List.Subset.refl _
  | queued => exact List.subset_append_left _ _
  | forgone _ hleaves | left _ hleaves => 
    rcases h with rfl | rfl <;> rcases hleaves with hleaves | ⟨hleaves, -⟩ <;> cases hleaves
  | returned | closed => rcases h with h | h <;> cases h

end Steps

end Pool

end NestedSql
