import NestedSql.Proofs.Pool.Steps

/-!
# Precedence of clients

Who started to wait first is served first, in whatever order clients ask again, leave or give up. A
permit is passed on at one moment and asked for at another, so the statement is about permits that
have been passed: a client may well ask before an earlier one that could hold a permit as well.
-/

namespace NestedSql.Pool

variable {Client : Type} [DecidableEq Client]

/-- A client that the pool does not know asks for a permit and is left waiting. -/
structure Pends (pool : Pool Client) (client : Client) : Prop where
  unknown : pool.knows client = false
  pending : (pool.acquire client).2 = .pending

/-- The first of some clients has been passed a permit, or all of them wait in this order. -/
def Ahead (pool : Pool Client) (first : Client) (others : List Client) : Prop :=
  first ∈ pool.granted ∨ (first :: others).Sublist pool.waiting

omit [DecidableEq Client] in
/-- A permit that comes back goes to the first of those who wait. -/
theorem Ahead.giveBack {pool : Pool Client} {first : Client} {others : List Client}
    (h : pool.Ahead first others) : pool.giveBack.Ahead first others := by
  rcases pool.giveBack_cases with ⟨client, waiting, _, hwaiting, hgiven⟩ | ⟨_, hgiven⟩
  · rw [hgiven]
    rcases h with hgranted | hqueue
    · exact .inl (List.mem_append_left _ hgranted)
    · rw [hwaiting] at hqueue
      cases hqueue with
      | cons _ hqueue => exact .inr hqueue
      | cons_cons => exact .inl (List.mem_append_right _ (List.mem_singleton_self _))
  · rw [hgiven]
    exact h

section Ahead

variable {pool next : Pool Client} {step : PoolStep Client} {answer : PoolAnswer}
  {first second : Client} {others : List Client}

/-- One step keeps the order, unless it is the first client that holds its permit now. -/
theorem Turn.ahead (hturn : Turn pool step next answer) (hopen : next.isOpen = true)
    (hcancelled : ∀ client ∈ first :: others,
      ¬ (step.client? = some client ∧ answer = .cancelled))
    (h : pool.Ahead first others) :
    step.client? = some first ∧ answer = .held ∨ next.Ahead first others := by
  -- nobody is refused by an open pool, so who gives up would be told so
  have hstays : ∀ {client}, step.client? = some client →
      answer = .cancelled ∨ answer = .refused ∧ pool.isOpen = false →
        client ∉ first :: others := by
    rintro client hclient (hanswer | ⟨-, hclosed⟩) hmem
    · exact hcancelled client hmem ⟨hclient, hanswer⟩
    · rw [hturn.isOpen_eq, hclosed] at hopen
      cases hopen
  cases hturn with
  | unchanged | closed | lent => exact .inr h
  | queued => exact .inr (h.imp_right fun hqueue => hqueue.trans (List.sublist_append_left _ _))
  | @claimed _ client hasks =>
    by_cases hfirst : first = client
    · exact .inl ⟨hfirst ▸ hasks, rfl⟩
    · exact .inr (h.imp_left (List.mem_erase_of_ne hfirst).mpr)
  | @forgone _ client _ hasks hleaves =>
    have hother : first ≠ client := by
      rintro rfl
      exact hstays hasks hleaves List.mem_cons_self
    have herased : Ahead { pool with granted := pool.granted.erase client } first others :=
      h.imp_left (List.mem_erase_of_ne hother).mpr
    exact .inr herased.giveBack
  | left hasks hleaves =>
    refine .inr (h.imp_right fun hqueue => ?_)
    rw [← List.erase_of_not_mem (hstays hasks hleaves)]
    exact hqueue.erase _
  | returned => exact .inr (Ahead.giveBack h)

theorem ahead_after (hb : pool.Balanced) {steps : List (PoolStep Client)}
    (hopen : (pool.after steps).isOpen = true)
    (hcancelled : ∀ client ∈ first :: others, ¬ WasTold (pool.told steps) client .cancelled)
    (h : pool.Ahead first others) :
    WasTold (pool.told steps) first .held ∨ (pool.after steps).Ahead first others := by
  induction steps generalizing pool with
  | nil => exact .inr h
  | cons step steps ih =>
    have hnext := balanced_step hb step
    simp only [told_cons, wasTold_cons, not_or] at hcancelled ⊢
    rcases (turn hb step).ahead (isOpen_of_after hnext hopen)
      (fun client hclient => (hcancelled client hclient).1) h with hheld | hahead
    · exact .inl (.inl hheld)
    · have hlater := ih hnext hopen (fun client hclient => (hcancelled client hclient).2) hahead
      exact hlater.imp_left .inr

/-- A client that is left waiting stands behind all who wait. -/
theorem Pends.acquire_eq (h : pool.Pends first) :
    (pool.acquire first).1 = { pool with waiting := pool.waiting ++ [first] } := by
  have hpending := h.pending
  unfold acquire at hpending ⊢
  rw [h.unknown] at hpending ⊢
  simp only [Bool.false_eq_true, ↓reduceIte] at hpending ⊢
  split at hpending
  case isTrue => cases hpending
  case isFalse hopen =>
    split at hpending
    case isTrue => cases hpending
    case isFalse hnone => rw [if_neg hopen, if_neg hnone]

theorem Pends.ahead (h : pool.Pends first) : (pool.acquire first).1.Ahead first [] := by
  rw [h.acquire_eq]
  exact .inr (List.sublist_append_right _ _)

/-- Who waits stands before who is left waiting later. -/
theorem Ahead.pends (h : pool.Ahead first []) (hpends : pool.Pends second) :
    (pool.acquire second).1.Ahead first [second] := by
  rw [hpends.acquire_eq]
  exact h.imp_right fun hqueue => hqueue.append (List.Sublist.refl [second])

/-- Who stands behind another holds no permit and is passed none before the other. -/
theorem Ahead.serves (hb : pool.Balanced) (hopen : pool.isOpen = true)
    (h : pool.Ahead first [second])
    (hserved : second ∈ pool.held ∨ (pool.poll second).2 = .held) :
    (pool.poll first).2 = .held := by
  rcases h with hgranted | hqueue
  · exact poll_of_granted hb hopen hgranted
  · have hwaiting : second ∈ pool.waiting :=
      hqueue.subset (List.mem_cons_of_mem first List.mem_cons_self)
    rcases hserved with hheld | hserved
    · exact absurd hheld (holds_eq_zero.mp (wants_of_mem hb (.inr hwaiting)).1)
    · rw [poll_of_waiting hb hopen hwaiting] at hserved
      cases hserved

/-- A newcomer is not served while an earlier client waits. -/
theorem acquire_ne_held (hb : pool.Balanced) (hwaiting : first ∈ pool.waiting)
    (hunknown : pool.knows second = false) : (pool.acquire second).2 ≠ .held := by
  unfold acquire
  rw [hunknown]
  simp only [Bool.false_eq_true, ↓reduceIte]
  split
  case isTrue => exact nofun
  case isFalse hopen =>
    have hopen : pool.isOpen = true := by simpa using hopen
    rw [hb.spent hopen (List.ne_nil_of_mem hwaiting)]
    exact nofun

end Ahead

/-- Clients are served in the order in which they started to wait. Of two that were left pending,
neither of which gave up, the later one holds a permit, or would be told so, only if the earlier one
does, has done or would be told so too. A newcomer is not served while anybody waits. -/
theorem served_in_order (size : Nat) (before between later : List (PoolStep Client))
    (first second : Client) :
    let start := (ofSize size : Pool Client).after before
    let middle := start.after (.acquire first :: between)
    let last := middle.after (.acquire second :: later)
    let told := start.told (.acquire first :: between ++ .acquire second :: later)
    (start.Pends first → middle.Pends second → last.isOpen = true →
      ¬ WasTold told first .cancelled →
      ¬ WasTold (middle.told (.acquire second :: later)) second .cancelled →
      second ∈ last.held ∨ (last.poll second).2 = .held →
        first ∈ last.held ∨ WasTold told first .held ∨ (last.poll first).2 = .held) ∧
      ∀ waiting ∈ start.waiting, ∀ newcomer, start.knows newcomer = false →
        (start.acquire newcomer).2 ≠ .held := by
  intro start middle last told
  have hstart : start.Balanced := balanced_after (balanced_ofSize size) before
  refine ⟨fun hfirst hsecond hopen hstays hstaysSecond hserved => ?_,
    fun waiting hwaiting newcomer => acquire_ne_held hstart hwaiting⟩
  have hmiddle : middle.Balanced := balanced_after hstart _
  have hlast : last.Balanced := balanced_after hmiddle _
  simp only [told, told_append, wasTold_append, told_cons, wasTold_cons, not_or] at hstays ⊢
  obtain ⟨⟨-, hstays⟩, -, hstaysLater⟩ := hstays
  rw [told_cons, wasTold_cons, not_or] at hstaysSecond
  -- the first client keeps its place until the second one comes, and both keep theirs from then on
  have hmiddleAhead := ahead_after (balanced_step hstart (.acquire first))
    (isOpen_of_after hmiddle hopen) (List.forall_mem_singleton.mpr hstays) hfirst.ahead
  rcases hmiddleAhead with hheld | hmiddleAhead
  · exact .inr (.inl (.inl (.inr hheld)))
  have hlastAhead := ahead_after (balanced_step hmiddle (.acquire second)) hopen
    (List.forall_mem_cons.mpr ⟨hstaysLater, List.forall_mem_singleton.mpr hstaysSecond.2⟩)
    (hmiddleAhead.pends hsecond)
  rcases hlastAhead with hheld | hlastAhead
  · exact .inr (.inl (.inr (.inr hheld)))
  · exact .inr (.inr (hlastAhead.serves hlast hopen hserved))

/-- Two clients are passed permits, and the later one asks first. -/
theorem later_client_asks_first :
    let last := (ofSize 2 : Pool Nat).after
      [.acquire 0, .acquire 3, .acquire 1, .acquire 2, .release 3, .release 0, .poll 2]
    2 ∈ last.held ∧ 1 ∉ last.held ∧ (last.poll 1).2 = .held := by
  have hserved := served_in_order 2 ([.acquire 0, .acquire 3] : List (PoolStep Nat)) []
    [.release 3, .release 0, .poll 2] 1 2
  refine ⟨by decide, by decide, ?_⟩
  have hearlier := hserved.1 ⟨by decide, by decide⟩ ⟨by decide, by decide⟩ (by decide) (by decide)
    (by decide) (.inl (by decide))
  exact (hearlier.resolve_left (by decide)).resolve_left (by decide)

end NestedSql.Pool
