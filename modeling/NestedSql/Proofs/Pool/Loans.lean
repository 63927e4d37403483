import Mathlib.Data.List.Nodup
import NestedSql.Pool.Lending

/-!
# Loans of connections

However the steps of clients interleave, a pool never has more connections than permits, those that
a client has decided to open included, and lends each connection to one client at a time. The bound
rests on the order in which a loan ends: a connection is idle again before its permit is free, so
who finds a permit and no idle connection is entitled to a new one.
-/

namespace NestedSql.Lending

/-! ## Loans and what they are about -/

section Loans

variable {Client : Type}

/-- The connections that some loans are about. -/
def lentOn (loans : List (Client × LoanStage)) : List Nat :=
  loans.filterMap fun loan => LoanStage.connection? loan.2

/-- The loans for which a connection is to be opened. -/
def openingsOf (loans : List (Client × LoanStage)) : Nat :=
  loans.countP fun loan => loan.2 = .opening

/-- The connections that a client at some stage is to open. -/
def opens : LoanStage → Nat
  | .opening => 1
  | _ => 0

/-- Every permit is free or out on a loan, every connection that has been opened is idle or lent,
and no more are open, or about to be, than there are permits. -/
structure Sound (lending : Lending Client) (size : Nat) : Prop where
  permits : lending.permits + lending.loans.length = max size 1
  clients : (lending.loans.map Prod.fst).Nodup
  connections : (lending.idle ++ lentOn lending.loans).Perm (List.range lending.opened)
  bounded : lending.opened + openingsOf lending.loans ≤ max size 1

variable {lending : Lending Client} {client : Client} {stage : LoanStage}
  {loans others : List (Client × LoanStage)}

theorem lentOn_perm (h : loans.Perm ((client, stage) :: others)) :
    (lentOn loans).Perm ((LoanStage.connection? stage).toList ++ lentOn others) := by
  have hlent := h.filterMap fun loan => LoanStage.connection? loan.2
  rw [List.filterMap_cons] at hlent
  cases hconnection : LoanStage.connection? stage <;> simpa [hconnection, lentOn] using hlent

theorem connections_perm (idle : List Nat) (h : loans.Perm ((client, stage) :: others)) :
    (idle ++ lentOn loans).Perm
      ((LoanStage.connection? stage).toList ++ (idle ++ lentOn others)) :=
  ((lentOn_perm h).append_left idle).trans (List.perm_append_comm_assoc _ _ _)

theorem openingsOf_perm (h : loans.Perm ((client, stage) :: others)) :
    openingsOf loans = openingsOf others + opens stage := by
  rw [openingsOf, h.countP_eq, List.countP_cons]
  cases stage <;> rfl

/-- A loan is about a connection, or waits for one to be opened, or neither. -/
theorem lentOn_add_openingsOf_le (loans : List (Client × LoanStage)) :
    (lentOn loans).length + openingsOf loans ≤ loans.length := by
  induction loans with
  | nil => exact Nat.le_refl 0
  | cons loan loans ih =>
    obtain ⟨client, stage⟩ := loan
    cases stage <;> simp [lentOn, openingsOf, LoanStage.connection?] at ih ⊢ <;> omega

theorem mem_lentOn {connection : Nat} :
    connection ∈ lentOn loans ↔ ∃ client, (client, .holding connection) ∈ loans := by
  rw [lentOn, List.mem_filterMap]
  constructor
  · rintro ⟨⟨client, stage⟩, hloan, hconnection⟩
    cases stage with
    | holding => exact ⟨client, Option.some.inj hconnection ▸ hloan⟩
    | permitted | opening | returned => cases hconnection
  · rintro ⟨client, hloan⟩
    exact ⟨_, hloan, rfl⟩

theorem sound_ofSize (size : Nat) : (ofSize size : Lending Client).Sound size :=
  ⟨rfl, .nil, .nil, Nat.zero_le _⟩

theorem Sound.alive_eq {size : Nat} (hs : lending.Sound size) :
    lending.alive = lending.opened + openingsOf lending.loans := by
  have hlength := hs.connections.length_eq
  rw [List.length_append, List.length_range] at hlength
  rw [← hlength]
  rfl

end Loans

variable {Client : Type} [DecidableEq Client]

/-- The loans of all clients but one. -/
def others (lending : Lending Client) (client : Client) : List (Client × LoanStage) :=
  lending.loans.filter fun loan => loan.1 ≠ client

/-- What a step comes to. -/
inductive Turn (lending : Lending Client) : LendingStep Client → Lending Client → Prop where
  | permit {client} (free : 0 < lending.permits) (unknown : lending.stage? client = none) :
      Turn lending (.permit client)
        { lending with
          permits := lending.permits - 1, loans := (client, .permitted) :: lending.loans }
  | reuse {client connection idle} (stage : lending.stage? client = some .permitted)
      (found : lending.idle = connection :: idle) :
      Turn lending (.take client) ({ lending with idle := idle }.move client (.holding connection))
  | decide {client} (stage : lending.stage? client = some .permitted) (none : lending.idle = []) :
      Turn lending (.take client) (lending.move client .opening)
  | connect {client} (stage : lending.stage? client = some .opening) :
      Turn lending (.connect client)
        ({ lending with opened := lending.opened + 1 }.move client (.holding lending.opened))
  | fail {client} (stage : lending.stage? client = some .opening) :
      Turn lending (.fail client) (lending.endLoan client)
  | putBack {client connection} (stage : lending.stage? client = some (.holding connection)) :
      Turn lending (.putBack client)
        ({ lending with idle := connection :: lending.idle }.move client .returned)
  | finish {client} (stage : lending.stage? client = some .returned) :
      Turn lending (.finish client) (lending.endLoan client)

section Steps

variable {lending next : Lending Client} {step : LendingStep Client} {client : Client}
  {stage : LoanStage} {size : Nat}

theorem turn_of_step (h : lending.step? step = some next) : Turn lending step next := by
  cases step with
  | permit client =>
    simp only [step?] at h
    split at h
    case isTrue hfree => exact Option.some.inj h ▸ .permit hfree.1 hfree.2
    case isFalse => cases h
  | take client =>
    simp only [step?] at h
    split at h
    case h_1 hstage hidle => exact Option.some.inj h ▸ .reuse hstage hidle
    case h_2 hstage hidle => exact Option.some.inj h ▸ .decide hstage hidle
    case h_3 => cases h
  | connect client =>
    simp only [step?] at h
    split at h
    case h_1 hstage => exact Option.some.inj h ▸ .connect hstage
    case h_2 => cases h
  | fail client =>
    simp only [step?] at h
    split at h
    case h_1 hstage => exact Option.some.inj h ▸ .fail hstage
    case h_2 => cases h
  | putBack client =>
    simp only [step?] at h
    split at h
    case h_1 hstage => exact Option.some.inj h ▸ .putBack hstage
    case h_2 => cases h
  | finish client =>
    simp only [step?] at h
    split at h
    case h_1 hstage => exact Option.some.inj h ▸ .finish hstage
    case h_2 => cases h

/-! ## One loan and the others -/

theorem perm_of_lookup {loans : List (Client × LoanStage)}
    (hclients : (loans.map Prod.fst).Nodup) (h : loans.lookup client = some stage) :
    loans.Perm ((client, stage) :: loans.filter fun loan => loan.1 ≠ client) := by
  induction loans with
  | nil => cases h
  | cons loan loans ih =>
    obtain ⟨other, held⟩ := loan
    rw [List.map_cons, List.nodup_cons] at hclients
    rw [List.lookup_cons] at h
    split at h
    case h_1 hsame =>
      obtain rfl := eq_of_beq hsame
      obtain rfl := Option.some.inj h
      have hothers : loans.filter (fun loan => loan.1 ≠ client) = loans := by
        refine List.filter_eq_self.mpr fun loan hloan => decide_eq_true ?_
        rintro rfl
        exact hclients.1 (List.mem_map.mpr ⟨loan, hloan, rfl⟩)
      rw [List.filter_cons_of_neg (by simp), hothers]
    case h_2 hother =>
      have hne : other ≠ client := fun hsame => by simp [hsame] at hother
      rw [List.filter_cons_of_pos (by simpa using hne)]
      exact ((ih hclients.2 h).cons _).trans (.swap _ _ _)

/-- The loan of a client stands beside the others. -/
theorem loans_perm (hclients : (lending.loans.map Prod.fst).Nodup)
    (h : lending.stage? client = some stage) :
    lending.loans.Perm ((client, stage) :: lending.others client) :=
  perm_of_lookup hclients h

/-- A client that goes on leaves the other loans alone. -/
theorem move_perm (hclients : (lending.loans.map Prod.fst).Nodup)
    (h : lending.stage? client = some stage) (later : LoanStage) :
    (lending.move client later).loans.Perm ((client, later) :: lending.others client) := by
  have hmoved := (loans_perm hclients h).map fun loan =>
    if loan.1 = client then (client, later) else loan
  have hothers : (lending.others client).map
      (fun loan => if loan.1 = client then (client, later) else loan) = lending.others client := by
    refine (List.map_congr_left fun loan hloan => ?_).trans (List.map_id _)
    exact if_neg (of_decide_eq_true (List.mem_filter.mp hloan).2)
  rwa [List.map_cons, if_pos rfl, hothers] at hmoved

/-! ## Soundness -/

/-- The loan of a client goes on; what becomes of the connections is about this loan alone. -/
theorem Sound.moved {later : LoanStage} (hs : lending.Sound size)
    (hstage : lending.stage? client = some stage)
    (hloans : next.loans.Perm ((client, later) :: lending.others client))
    (hpermits : next.permits = lending.permits)
    (hconnections : ((LoanStage.connection? stage).toList ++
        (lending.idle ++ lentOn (lending.others client))).Perm (List.range lending.opened) →
      ((LoanStage.connection? later).toList ++
        (next.idle ++ lentOn (lending.others client))).Perm (List.range next.opened))
    (hbounded : next.opened + (openingsOf (lending.others client) + opens later) ≤ max size 1) :
    next.Sound size := by
  have hbefore := loans_perm hs.clients hstage
  refine ⟨?_, ?_, ?_, ?_⟩
  · rw [hpermits, hloans.length_eq, List.length_cons, ← hs.permits, hbefore.length_eq,
      List.length_cons]
  · rw [(hloans.map Prod.fst).nodup_iff]
    exact (hbefore.map Prod.fst).nodup_iff.mp hs.clients
  · exact (connections_perm next.idle hloans).trans
      (hconnections ((connections_perm lending.idle hbefore).symm.trans hs.connections))
  · rwa [openingsOf_perm hloans]

/-- A loan ends that is about no connection. -/
theorem Sound.ended (hs : lending.Sound size) (hstage : lending.stage? client = some stage)
    (hnone : LoanStage.connection? stage = none) : (lending.endLoan client).Sound size := by
  have hbefore := loans_perm hs.clients hstage
  have hopenings := openingsOf_perm hbefore
  refine ⟨?_, ?_, ?_, ?_⟩
  · have hlength := hbefore.length_eq
    have hpermits := hs.permits
    rw [List.length_cons] at hlength
    change lending.permits + 1 + (lending.others client).length = _
    omega
  · exact ((hbefore.map Prod.fst).nodup_iff.mp hs.clients).of_cons
  · have hconnections := (connections_perm lending.idle hbefore).symm.trans hs.connections
    rwa [hnone] at hconnections
  · have hbounded := hs.bounded
    change lending.opened + openingsOf (lending.others client) ≤ _
    omega

/-- The bound, with one loan beside the others. -/
theorem Sound.bounded_beside (hs : lending.Sound size)
    (hstage : lending.stage? client = some stage) :
    lending.opened + (openingsOf (lending.others client) + opens stage) ≤ max size 1 := by
  rw [← openingsOf_perm (loans_perm hs.clients hstage)]
  exact hs.bounded

/-- Who owns a permit and finds no idle connection is entitled to a new one: all that are open are
lent on other loans, each with a permit of its own. -/
theorem Sound.room (hs : lending.Sound size) (hstage : lending.stage? client = some .permitted)
    (hnone : lending.idle = []) :
    lending.opened + (openingsOf (lending.others client) + 1) ≤ max size 1 := by
  have hbefore := loans_perm hs.clients hstage
  have hlent := (lentOn_perm hbefore).length_eq
  have hopened := hs.connections.length_eq
  have hothers := lentOn_add_openingsOf_le (lending.others client)
  have hlength := hbefore.length_eq
  have hpermits := hs.permits
  rw [hnone, List.nil_append, List.length_range] at hopened
  rw [List.length_cons] at hlength
  simp only [LoanStage.connection?, Option.toList_none, List.nil_append] at hlent
  omega

theorem Sound.permit (hs : lending.Sound size) (hfree : 0 < lending.permits)
    (hunknown : lending.stage? client = none) :
    Sound { lending with
      permits := lending.permits - 1, loans := (client, .permitted) :: lending.loans } size := by
  have hnew : client ∉ lending.loans.map Prod.fst := by
    intro hclient
    obtain ⟨loan, hloan, rfl⟩ := List.mem_map.mp hclient
    simpa using List.lookup_eq_none_iff.mp hunknown loan hloan
  refine ⟨?_, List.nodup_cons.mpr ⟨hnew, hs.clients⟩, hs.connections, ?_⟩
  · have hpermits := hs.permits
    simp only [List.length_cons]
    omega
  · have hopenings : openingsOf ((client, .permitted) :: lending.loans) =
        openingsOf lending.loans := by simp [openingsOf]
    rw [hopenings]
    exact hs.bounded

/-- One step keeps a lending sound. -/
theorem Turn.sound (h : Turn lending step next) (hs : lending.Sound size) : next.Sound size := by
  cases h with
  | permit hfree hunknown => exact hs.permit hfree hunknown
  | reuse hstage hfound =>
    have hbounded := hs.bounded_beside hstage
    refine hs.moved hstage (move_perm hs.clients hstage _) rfl ?_ hbounded
    rw [hfound]
    exact id
  | decide hstage hnone =>
    exact hs.moved hstage (move_perm hs.clients hstage _) rfl id (hs.room hstage hnone)
  | connect hstage =>
    refine hs.moved hstage (move_perm hs.clients hstage _) rfl (fun hconnections => ?_) ?_
    · have hopened := (hconnections.cons lending.opened).trans
        (List.perm_append_singleton lending.opened (List.range lending.opened)).symm
      rwa [← List.range_succ] at hopened
    · have hbounded := hs.bounded_beside hstage
      simp only [opens, move] at hbounded ⊢
      omega
  | fail hstage => exact hs.ended hstage rfl
  | putBack hstage =>
    have hbounded := hs.bounded_beside hstage
    exact hs.moved hstage (move_perm hs.clients hstage _) rfl id hbounded
  | finish hstage => exact hs.ended hstage rfl

/-- Every run keeps a lending sound. -/
theorem sound_after {steps : List (LendingStep Client)}
    (h : lending.after? steps = some next) (hs : lending.Sound size) : next.Sound size := by
  induction steps generalizing lending with
  | nil => exact Option.some.inj h ▸ hs
  | cons step steps ih =>
    obtain ⟨middle, hstep, hrest⟩ := Option.bind_eq_some_iff.mp h
    exact ih hrest ((turn_of_step hstep).sound hs)

/-! ## Where a connection is -/

theorem stage?_eq_some (hclients : (lending.loans.map Prod.fst).Nodup) :
    lending.stage? client = some stage ↔ (client, stage) ∈ lending.loans := by
  refine ⟨fun hstage => (loans_perm hclients hstage).mem_iff.mpr List.mem_cons_self,
    fun hloan => ?_⟩
  cases hstage : lending.stage? client with
  | none => simpa using List.lookup_eq_none_iff.mp hstage _ hloan
  | some other =>
    rcases List.mem_cons.mp ((loans_perm hclients hstage).mem_iff.mp hloan) with hsame | hother
    · rw [(Prod.mk.inj hsame).2]
    · exact absurd rfl (of_decide_eq_true (List.mem_filter.mp hother).2)

/-- A connection that is lent is held by one client. -/
theorem Sound.holder_unique (hs : lending.Sound size) {connection : Nat} {other : Client}
    (hclient : lending.stage? client = some (.holding connection))
    (hother : lending.stage? other = some (.holding connection)) : other = client := by
  by_contra hne
  have hbeside := loans_perm hs.clients hclient
  have honce := (List.nodup_append.mp (hs.connections.nodup_iff.mpr List.nodup_range)).2.1
  rw [(lentOn_perm hbeside).nodup_iff] at honce
  refine (List.nodup_cons.mp honce).1 (mem_lentOn.mpr ⟨other, List.mem_filter.mpr ⟨?_, ?_⟩⟩)
  · exact (stage?_eq_some hs.clients).mp hother
  · exact decide_eq_true hne

/-- A connection that has been opened is idle or lent, and not both. -/
theorem Sound.placed (hs : lending.Sound size) {connection : Nat}
    (hopened : connection < lending.opened) :
    lending.idle.count connection = 1 ∧
        (∀ client, lending.stage? client ≠ some (.holding connection)) ∨
      lending.idle.count connection = 0 ∧
        ∃! client, lending.stage? client = some (.holding connection) := by
  have hnodup := hs.connections.nodup_iff.mpr List.nodup_range
  have honce := List.count_eq_one_of_mem hnodup
    (hs.connections.mem_iff.mpr (List.mem_range.mpr hopened))
  rw [List.count_append] at honce
  by_cases hlent : connection ∈ lentOn lending.loans
  · obtain ⟨client, hloan⟩ := mem_lentOn.mp hlent
    have hclient := (stage?_eq_some hs.clients).mpr hloan
    have hpos := List.count_pos_iff.mpr hlent
    exact .inr ⟨by omega, client, hclient, fun other => hs.holder_unique hclient⟩
  · have hnone := List.count_eq_zero.mpr hlent
    refine .inl ⟨by omega, fun client hclient => hlent ?_⟩
    exact mem_lentOn.mpr ⟨client, (stage?_eq_some hs.clients).mp hclient⟩

end Steps

/-- However the steps of clients interleave, a pool has no more connections than permits, with those
that are about to be opened. Every connection it has opened is idle once or held by one client, and
no others are. -/
theorem connections_lent_once {size : Nat} {steps : List (LendingStep Client)}
    {lending : Lending Client} (h : (ofSize size).after? steps = some lending) :
    lending.alive ≤ max size 1 ∧
      ∀ connection,
        (connection < lending.opened ↔ connection ∈ lending.idle ∨
          ∃ client, lending.stage? client = some (.holding connection)) ∧
        (connection < lending.opened →
          lending.idle.count connection = 1 ∧
              (∀ client, lending.stage? client ≠ some (.holding connection)) ∨
            lending.idle.count connection = 0 ∧
              ∃! client, lending.stage? client = some (.holding connection)) := by
  have hs := sound_after h (sound_ofSize size)
  refine ⟨hs.alive_eq ▸ hs.bounded, fun connection => ⟨?_, hs.placed⟩⟩
  rw [← List.mem_range, ← hs.connections.mem_iff, List.mem_append, mem_lentOn]
  simp only [stage?_eq_some hs.clients]

/-- A client takes over a connection before its permit is free again; another one fails to open a
connection and opens it when it tries again. -/
theorem reused_connection_lent_once :
    ∃ lending : Lending Nat, (ofSize 2).after?
        [.permit 0, .take 0, .permit 1, .connect 0, .putBack 0, .take 1, .finish 0, .permit 2,
          .take 2, .fail 2, .permit 2, .take 2, .connect 2] = some lending ∧
      lending.alive = 2 ∧ lending.alive ≤ max 2 1 ∧
      ∃! client, lending.stage? client = some (.holding 0) := by
  have hafter : (ofSize 2 : Lending Nat).after?
      [.permit 0, .take 0, .permit 1, .connect 0, .putBack 0, .take 1, .finish 0, .permit 2,
        .take 2, .fail 2, .permit 2, .take 2, .connect 2] =
      some ⟨0, [], [(2, .holding 1), (1, .holding 0)], 2⟩ := by decide
  obtain ⟨halive, hplaced⟩ := connections_lent_once hafter
  refine ⟨_, hafter, by decide, halive, ?_⟩
  exact (((hplaced 0).2 (by decide)).resolve_left fun hidle => by simp at hidle).2

end NestedSql.Lending
