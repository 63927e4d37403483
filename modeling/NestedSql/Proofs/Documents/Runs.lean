import NestedSql.Proofs.Documents.Shapes

/-!
# Runs of plans

Each part of a plan runs one statement and decodes its document, in the order rows, aggregates,
groups. A run gives a row set exactly if the document of every part has its shape, and the row set
is what the documents show; otherwise the first part that gives nothing says why. Nothing is assumed
of the plan or of the engine.
-/

namespace NestedSql

open Compile (bind_eq_error bind_eq_ok mapM_eq_ok pure_eq_ok throw_ne_ok)

/-! ## Parts -/

/-- The parts of plans and of row sets. -/
inductive PlanPart where
  | rows
  | aggregates
  | groups
deriving DecidableEq, Repr

namespace PlanPart

/-- What is returned for the part. -/
abbrev Value : PlanPart → Type
  | rows => List Row
  | aggregates => Entries Json
  | groups => List Group

/-- The parts that are run before this one. -/
def before : PlanPart → List PlanPart
  | rows => []
  | aggregates => [rows]
  | groups => [rows, aggregates]

/-- The value in the document of a part. -/
def decode : (part : PlanPart) → Json → Except ExecutionError part.Value
  | rows => RowSet.rowsOf
  | aggregates => RowSet.aggregatesOf
  | groups => RowSet.groupsOf

/-- The document has the shape of the part and shows the value. -/
def Shows : (part : PlanPart) → Json → part.Value → Prop
  | rows, document, value => document.ShowsRows value
  | aggregates, document, value => document = .object value
  | groups, document, value => document.ShowsGroups value

/-- What is said of a document that has another shape. -/
def Objects : PlanPart → Json → ExecutionError → Prop
  | rows, document, error => ∃ fault, error = .undecodable fault ∧
      Wire.fromValue (.named .rowsDocument) document.written = .error fault
  | aggregates, document, error => error = .aggregatesNotObject document
  | groups, document, error => ∃ fault, error = .undecodable fault ∧
      Wire.fromValue (.list (.named .group)) document.written = .error fault

end PlanPart

/-- The statement of a part. -/
def Plan.part (plan : Plan) : PlanPart → Option Statement
  | .rows => plan.rows
  | .aggregates => plan.aggregates
  | .groups => plan.groups

/-- The value of a part. -/
def RowSet.part (rowSet : RowSet) : (part : PlanPart) → Option part.Value
  | .rows => rowSet.rows
  | .aggregates => rowSet.aggregates
  | .groups => rowSet.groups

/-! ## Outcomes -/

/-- The outcome is a text whose document shows the value. -/
def Outcome.Gives (part : PlanPart) (outcome : Outcome) (value : part.Value) : Prop :=
  ∃ cell document, outcome = .text cell ∧ Json.parse? cell = some document ∧
    part.Shows document value

/-- Why an outcome gives nothing. -/
inductive Outcome.Fails (part : PlanPart) : Outcome → ExecutionError → Prop
  | rejected (message : String) : Fails part (.rejected message) (.rejected message)
  | noRow : Fails part .noRow .noRow
  | null : Fails part .null .nullDocument
  | malformed {cell : String} : Json.parse? cell = none →
      Fails part (.text cell) (.undecodable .malformed)
  | misshapen {cell : String} {document : Json} {error : ExecutionError} :
      Json.parse? cell = some document → (∀ value, ¬part.Shows document value) →
        part.Objects document error → Fails part (.text cell) error

/-- The kind of the error that an outcome without a value is answered with. -/
def PlanPart.errorKind (part : PlanPart) : Outcome → ExecutionError.Kind
  | .rejected _ | .noRow => .database
  | .null => .typeMismatch
  | .text cell =>
    if part = .aggregates ∧ (Json.parse? cell).isSome then .typeMismatch else .decode

theorem Outcome.Fails.kind {part : PlanPart} {outcome : Outcome} {error : ExecutionError}
    (h : outcome.Fails part error) : error.kind = part.errorKind outcome := by
  cases h with
  | rejected message | noRow | null => rfl
  | malformed hcell => simp [PlanPart.errorKind, hcell, ExecutionError.kind]
  | misshapen hcell _ hobjects =>
    cases part with
    | aggregates =>
      obtain rfl := hobjects
      simp [PlanPart.errorKind, hcell, ExecutionError.kind]
    | rows | groups =>
      obtain ⟨fault, rfl, -⟩ := hobjects
      rfl

/-! ## Decoding -/

theorem decodeDocument_eq_ok {kind : Wire.Kind} {document : Json} {value : kind.Value} :
    decodeDocument kind document = .ok value ↔
      Wire.fromValue kind document.written = .ok value := by
  rw [decodeDocument]
  cases Wire.fromValue kind document.written with
  | ok found => exact pure_eq_ok.trans ⟨congrArg Except.ok, Except.ok.inj⟩
  | error fault => constructor <;> rintro ⟨⟩

theorem undecodable_of_error {kind : Wire.Kind} {document : Json} {error : ExecutionError}
    (h : decodeDocument kind document = .error error) :
    ∃ fault, error = .undecodable fault ∧
      Wire.fromValue kind document.written = .error fault := by
  rw [decodeDocument] at h
  cases hread : Wire.fromValue kind document.written with
  | ok found =>
    rw [hread] at h
    cases h
  | error fault =>
    rw [hread] at h
    exact ⟨fault, (Except.error.inj h).symm, rfl⟩

namespace PlanPart

/-- Documents are decoded to what they show. -/
theorem decode_eq_ok (part : PlanPart) {document : Json} (h : document.merged = document)
    {value : part.Value} : part.decode document = .ok value ↔ part.Shows document value := by
  cases part with
  | rows =>
    rw [Shows, ← Wire.fromValue_rowsDocument_eq_ok h, ← decodeDocument_eq_ok]
    show RowSet.rowsOf document = .ok value ↔ _
    rw [RowSet.rowsOf, bind_eq_ok]
    constructor
    · rintro ⟨found, hfound, ⟨⟩⟩
      exact hfound
    · exact fun hdecode => ⟨_, hdecode, rfl⟩
  | aggregates =>
    cases document with
    | object members =>
      exact ⟨fun heq => congrArg Json.object (Except.ok.inj heq),
        fun heq => congrArg _ (Json.object.inj heq)⟩
    | _ => constructor <;> rintro ⟨⟩
  | groups =>
    rw [Shows, ← Wire.fromValue_groups_eq_ok h, ← decodeDocument_eq_ok]
    exact Iff.rfl

theorem objects_of_error (part : PlanPart) {document : Json} {error : ExecutionError}
    (h : part.decode document = .error error) : part.Objects document error := by
  cases part with
  | rows =>
    have hdecode : decodeDocument (.named .rowsDocument) document = .error error := by
      have hrows : RowSet.rowsOf document = .error error := h
      rw [RowSet.rowsOf] at hrows
      cases hread : decodeDocument (.named .rowsDocument) document with
      | ok found =>
        rw [hread] at hrows
        cases hrows
      | error fault =>
        rw [hread] at hrows
        obtain rfl : fault = error := Except.error.inj hrows
        rfl
    exact undecodable_of_error hdecode
  | aggregates =>
    cases document with
    | object members => cases h
    | _ => exact (Except.error.inj h).symm
  | groups => exact undecodable_of_error h

theorem objects_unique {part : PlanPart} {document : Json} {error other : ExecutionError}
    (h : part.Objects document error) (hother : part.Objects document other) : error = other := by
  cases part with
  | aggregates => exact h.trans hother.symm
  | rows | groups =>
    obtain ⟨fault, rfl, hfault⟩ := h
    obtain ⟨found, rfl, hfound⟩ := hother
    rw [Except.error.inj (hfault.symm.trans hfound)]

/-- What is said of a document of another shape is the error of decoding it. -/
theorem decode_eq_error (part : PlanPart) {document : Json} (h : document.merged = document)
    {error : ExecutionError} :
    part.decode document = .error error ↔
      (∀ value, ¬part.Shows document value) ∧ part.Objects document error := by
  constructor
  · intro herror
    refine ⟨fun value hvalue => ?_, part.objects_of_error herror⟩
    rw [(part.decode_eq_ok h).mpr hvalue] at herror
    cases herror
  · rintro ⟨hnone, hobjects⟩
    cases hdecode : part.decode document with
    | ok value => exact absurd ((part.decode_eq_ok h).mp hdecode) (hnone value)
    | error found => rw [objects_unique (part.objects_of_error hdecode) hobjects]

end PlanPart

/-- The value of a part in an outcome. -/
def Outcome.decode (part : PlanPart) (outcome : Outcome) : Except ExecutionError part.Value := do
  part.decode (← outcome.document)

namespace Outcome

variable {part : PlanPart} {outcome : Outcome} {cell : String}

theorem document_text {document : Json} (h : Json.parse? cell = some document) :
    (text cell).document = .ok document := by
  rw [Outcome.document, h]
  rfl

theorem document_malformed (h : Json.parse? cell = none) :
    (text cell).document = .error (.undecodable .malformed) := by
  rw [Outcome.document, h]
  rfl

theorem merged_of_parse? {document : Json} (h : Json.parse? cell = some document) :
    document.merged = document := by
  rw [Json.parse?] at h
  dsimp only at h
  split at h
  · exact Json.merged_of_value? _ h
  · cases h

theorem decode_eq_ok {value : part.Value} :
    outcome.decode part = .ok value ↔ outcome.Gives part value := by
  cases outcome with
  | rejected message | noRow | null => exact ⟨nofun, nofun⟩
  | text cell =>
    cases hcell : Json.parse? cell with
    | none =>
      rw [decode, document_malformed hcell]
      refine ⟨nofun, ?_⟩
      rintro ⟨_, document, ⟨⟩, hdocument, -⟩
      exact nomatch hcell.symm.trans hdocument
    | some document =>
      rw [decode, document_text hcell]
      refine (part.decode_eq_ok (merged_of_parse? hcell)).trans ⟨fun h => ⟨_, _, rfl, hcell, h⟩, ?_⟩
      rintro ⟨_, found, ⟨⟩, hfound, hshows⟩
      obtain rfl := Option.some.inj (hcell.symm.trans hfound)
      exact hshows

theorem decode_eq_error {error : ExecutionError} :
    outcome.decode part = .error error ↔ outcome.Fails part error := by
  cases outcome with
  | rejected message | noRow | null =>
    constructor
    · rintro ⟨⟩
      constructor
    · rintro ⟨⟩
      rfl
  | text cell =>
    cases hcell : Json.parse? cell with
    | none =>
      rw [decode, document_malformed hcell]
      constructor
      · rintro ⟨⟩
        exact .malformed hcell
      · rintro (_ | _ | _ | _ | ⟨hdocument, -, -⟩)
        · rfl
        · exact nomatch hcell.symm.trans hdocument
    | some document =>
      rw [decode, document_text hcell]
      refine (part.decode_eq_error (merged_of_parse? hcell)).trans
        ⟨fun ⟨hnone, hobjects⟩ => .misshapen hcell hnone hobjects, ?_⟩
      rintro (_ | _ | _ | hmalformed | ⟨hdocument, hnone, hobjects⟩)
      · exact nomatch hcell.symm.trans hmalformed
      · obtain rfl := Option.some.inj (hcell.symm.trans hdocument)
        exact ⟨hnone, hobjects⟩

end Outcome

/-! ## Runs -/

section Runs

variable (engine : Engine) (plan : Plan)

/-- The value is there exactly if the part has a statement, and is what its outcome gives. -/
def Plan.Returns (part : PlanPart) (value : Option part.Value) : Prop :=
  Option.Rel (fun statement value => (engine statement).Gives part value) (plan.part part) value

/-- The parts before this one return, and the outcome of its statement gives nothing. -/
def Plan.FailsAt (part : PlanPart) (error : ExecutionError) : Prop :=
  (∀ earlier ∈ part.before, ∃ value, plan.Returns engine earlier value) ∧
    ∃ statement, plan.part part = some statement ∧ (engine statement).Fails part error

/-- One part of a run. -/
def Plan.runPart (part : PlanPart) : Except ExecutionError (Option part.Value) :=
  (plan.part part).mapM fun statement => (engine statement).decode part

variable {engine plan}

theorem Plan.runPart_eq_ok {part : PlanPart} {value : Option part.Value} :
    plan.runPart engine part = .ok value ↔ plan.Returns engine part value := by
  rw [runPart, mapM_eq_ok, Returns]
  constructor
  · rintro (⟨hnone, rfl⟩ | ⟨statement, found, hstatement, hfound, rfl⟩)
    · rw [hnone]
      exact .none
    · rw [hstatement]
      exact .some (Outcome.decode_eq_ok.mp hfound)
  · intro h
    cases hstatement : plan.part part with
    | none =>
      rw [hstatement] at h
      cases h
      exact .inl ⟨rfl, rfl⟩
    | some statement =>
      rw [hstatement] at h
      cases h with
      | some hgives => exact .inr ⟨_, _, rfl, Outcome.decode_eq_ok.mpr hgives, rfl⟩

theorem Plan.runPart_eq_error {part : PlanPart} {error : ExecutionError} :
    plan.runPart engine part = .error error ↔
      ∃ statement, plan.part part = some statement ∧ (engine statement).Fails part error := by
  rw [runPart]
  cases plan.part part with
  | none => exact ⟨nofun, nofun⟩
  | some statement =>
    simp only [Option.some.injEq, exists_eq_left', ← Outcome.decode_eq_error, Option.mapM_some]
    cases (engine statement).decode part with
    | ok value => exact ⟨nofun, nofun⟩
    | error fault =>
      exact ⟨fun h => congrArg _ (Except.error.inj h), fun h => congrArg _ (Except.error.inj h)⟩

theorem Plan.run_eq : plan.run engine = do
    let rows ← plan.runPart engine .rows
    let aggregates ← plan.runPart engine .aggregates
    let groups ← plan.runPart engine .groups
    return ⟨rows, aggregates, groups⟩ := rfl

theorem Plan.run_eq_ok {rowSet : RowSet} :
    plan.run engine = .ok rowSet ↔ ∀ part, plan.Returns engine part (rowSet.part part) := by
  rw [run_eq]
  simp only [bind_eq_ok, pure_eq_ok]
  constructor
  · rintro ⟨rows, hrows, aggregates, haggregates, groups, hgroups, rfl⟩ (_ | _ | _)
    · exact runPart_eq_ok.mp hrows
    · exact runPart_eq_ok.mp haggregates
    · exact runPart_eq_ok.mp hgroups
  · intro h
    exact ⟨_, runPart_eq_ok.mpr (h .rows), _, runPart_eq_ok.mpr (h .aggregates), _,
      runPart_eq_ok.mpr (h .groups), rfl⟩

theorem Plan.run_eq_error {error : ExecutionError} :
    plan.run engine = .error error ↔ ∃ part, plan.FailsAt engine part error := by
  have hpure : ∀ {rowSet : RowSet}, (pure rowSet : Except ExecutionError RowSet) ≠ .error error :=
    nofun
  rw [run_eq]
  simp only [bind_eq_error, hpure, and_false, exists_false, or_false]
  constructor
  · rintro (hrows | ⟨rows, hrows, haggregates | ⟨aggregates, haggregates, hgroups⟩⟩)
    · exact ⟨.rows, List.forall_mem_nil _, runPart_eq_error.mp hrows⟩
    · have hrows := runPart_eq_ok.mp hrows
      exact ⟨.aggregates, List.forall_mem_singleton.mpr ⟨rows, hrows⟩,
        runPart_eq_error.mp haggregates⟩
    · have hrows := runPart_eq_ok.mp hrows
      have haggregates := runPart_eq_ok.mp haggregates
      exact ⟨.groups, List.forall_mem_cons.mpr ⟨⟨rows, hrows⟩,
        List.forall_mem_singleton.mpr ⟨aggregates, haggregates⟩⟩, runPart_eq_error.mp hgroups⟩
  · rintro ⟨_ | _ | _, hearlier, hfails⟩
    · exact .inl (runPart_eq_error.mpr hfails)
    · obtain ⟨rows, hrows⟩ := hearlier .rows List.mem_cons_self
      exact .inr ⟨rows, runPart_eq_ok.mpr hrows, .inl (runPart_eq_error.mpr hfails)⟩
    · obtain ⟨rows, hrows⟩ := hearlier .rows List.mem_cons_self
      obtain ⟨aggregates, haggregates⟩ :=
        hearlier .aggregates (List.mem_cons_of_mem _ List.mem_cons_self)
      exact .inr ⟨rows, runPart_eq_ok.mpr hrows, .inr ⟨aggregates,
        runPart_eq_ok.mpr haggregates, runPart_eq_error.mpr hfails⟩⟩

end Runs

/-- A run gives a row set exactly if the documents of all parts have their shapes, and the row set
is what they show: it has the parts that the plan has, with all that their documents show in its
order. Otherwise the first part whose outcome gives nothing says why: the database for a statement
that was rejected or returned no row, the type for NULL and for aggregates that are no object, the
decoder for a text that is no document and for any other shape. -/
theorem runs_decode_promised_documents (engine : Engine) (plan : Plan) :
    (∀ rowSet, plan.run engine = .ok rowSet ↔
      ∀ part, plan.Returns engine part (rowSet.part part)) ∧
    (∀ error, plan.run engine = .error error ↔ ∃ part, plan.FailsAt engine part error) ∧
    ∀ part statement error, (engine statement).Fails part error →
      error.kind = part.errorKind (engine statement) :=
  ⟨fun _ => Plan.run_eq_ok, fun _ => Plan.run_eq_error, fun _ _ _ => Outcome.Fails.kind⟩

/-- The rows come as an array of their one member, and the aggregates as NULL. -/
theorem null_aggregates_fail_after_rows :
    let plan : Plan := ⟨some (.raw "rows"), some (.raw "aggregates"), none⟩
    let engine : Engine := fun statement => if statement.sql = "rows" then .text "[[]]" else .null
    plan.Returns engine .rows (some []) ∧ plan.run engine = .error .nullDocument ∧
      ExecutionError.nullDocument.kind = .typeMismatch := by
  intro plan engine
  have hparse : Json.parse? "[[]]" = some (.array [.array []]) := by cbv
  have hrows : plan.Returns engine .rows (some []) := .some ⟨_, _, rfl, hparse, .array []⟩
  have hnull : Outcome.Fails .aggregates (engine (.raw "aggregates")) .nullDocument := .null
  obtain ⟨-, herror, hkind⟩ := runs_decode_promised_documents engine plan
  refine ⟨hrows, (herror _).mpr ⟨.aggregates, ?_, _, rfl, hnull⟩, hkind _ _ _ hnull⟩
  exact List.forall_mem_singleton.mpr ⟨_, hrows⟩

end NestedSql
