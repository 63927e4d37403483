import NestedSql.Compile.Plan

/-!
# Successful steps

What the steps of a compilation found when they succeed: the entry a look-up returned, the name a
comparison accepted, the scalar a strategy was chosen for. Which fault a failing step reports is
not said here.
-/

namespace NestedSql.Compile

variable {ε α β : Type}

theorem bind_eq_ok {first : Except ε α} {next : α → Except ε β} {result : β} :
    (first >>= next) = .ok result ↔ ∃ value, first = .ok value ∧ next value = .ok result := by
  cases first with
  | error fault => exact ⟨nofun, nofun⟩
  | ok value =>
    constructor
    · intro h
      exact ⟨value, rfl, h⟩
    · rintro ⟨_, hv, h⟩
      cases hv
      exact h

theorem bind_eq_error {first : Except ε α} {next : α → Except ε β} {fault : ε} :
    (first >>= next) = .error fault ↔
      first = .error fault ∨ ∃ value, first = .ok value ∧ next value = .error fault := by
  cases first with
  | error other =>
    constructor
    · exact fun h => .inl (congrArg _ (Except.error.inj h))
    · rintro (h | ⟨value, ⟨⟩, -⟩)
      exact congrArg _ (Except.error.inj h)
  | ok value =>
    constructor
    · exact fun h => .inr ⟨value, rfl, h⟩
    · rintro (h | ⟨_, ⟨⟩, h⟩)
      · cases h
      · exact h

theorem pure_eq_ok {value result : α} :
    (pure value : Except ε α) = .ok result ↔ value = result := by
  constructor
  · exact Except.ok.inj
  · rintro rfl
    rfl

/-- An optional step either did not run or returned a value. -/
theorem mapM_eq_ok {step : α → Except ε β} {value : Option α} {result : Option β} :
    value.mapM step = .ok result ↔
      (value = none ∧ result = none) ∨
        ∃ a b, value = some a ∧ step a = .ok b ∧ result = some b := by
  cases value with
  | none =>
    constructor
    · intro h
      exact .inl ⟨rfl, (pure_eq_ok.mp h).symm⟩
    · rintro (⟨-, rfl⟩ | ⟨_, _, h, -⟩)
      · rfl
      · cases h
  | some a =>
    rw [Option.mapM_some]
    cases hstep : step a with
    | error fault => simp [hstep, Functor.map, Except.map]
    | ok b => simp [hstep, Functor.map, Except.map, eq_comm]

theorem throw_ne_ok {fault : ε} {result : α} : (throw fault : Except ε α) ≠ .ok result := nofun

/-- What every step keeps of the items taken so far, a fold that succeeds keeps of all items. -/
theorem foldlM_taken {State : Type} {holds : List α → State → Prop}
    {step : State → α → Except ε State}
    (hstep : ∀ taken state item next, step state item = .ok next → holds taken state →
      holds (taken ++ [item]) next) (items : List α) :
    ∀ {taken : List α} {state next : State}, items.foldlM step state = .ok next →
      holds taken state → holds (taken ++ items) next := by
  induction items with
  | nil =>
    intro taken state next h hholds
    obtain rfl := pure_eq_ok.mp h
    rwa [List.append_nil]
  | cons item items ih =>
    intro taken state next h hholds
    rw [List.foldlM_cons] at h
    obtain ⟨middle, hfirst, hrest⟩ := bind_eq_ok.mp h
    have hmiddle := ih hrest (hstep taken state item middle hfirst hholds)
    rwa [List.append_assoc] at hmiddle

/-- A fold that succeeds is followed by a fold of related states. -/
theorem foldlM_related {State Trace : Type} {related : State → Trace → Prop}
    {step : State → α → Except ε State} {trace : Trace → α → Option Trace}
    (hstep : ∀ state item next seen, step state item = .ok next → related state seen →
      ∃ later, trace seen item = some later ∧ related next later) (items : List α)
    {state next : State} {seen : Trace} (h : items.foldlM step state = .ok next)
    (hrelated : related state seen) :
    ∃ later, items.foldlM trace seen = some later ∧ related next later := by
  have hkept : ∀ taken state item next, step state item = .ok next →
      (∃ later, taken.foldlM trace seen = some later ∧ related state later) →
        ∃ later, (taken ++ [item]).foldlM trace seen = some later ∧ related next later := by
    rintro taken state item next hnext ⟨middle, htaken, hmiddle⟩
    obtain ⟨later, htrace, hlater⟩ := hstep state item next middle hnext hmiddle
    refine ⟨later, ?_, hlater⟩
    rw [List.foldlM_append, htaken]
    simp [htrace]
  have hall : ∃ later, ([] ++ items).foldlM trace seen = some later ∧ related next later :=
    foldlM_taken hkept items h ⟨seen, rfl, hrelated⟩
  rwa [List.nil_append] at hall

/-- Items that are numbered contribute what they are made from. -/
theorem flatMap_numbered {α β γ : Type} {number : Nat → α → β} (inner : β → List γ)
    (outer : α → List γ) (h : ∀ i a, inner (number i a) = outer a) (values : List α) :
    (values.mapIdx number).flatMap inner = values.flatMap outer := by
  induction values generalizing number with
  | nil => rfl
  | cons value values ih =>
    rw [List.mapIdx_cons, List.flatMap_cons, List.flatMap_cons, h, ih fun i a => h (i + 1) a]

theorem flatMap_numbered_nil {α β γ : Type} {number : Nat → α → β} {inner : β → List γ}
    (h : ∀ i a, inner (number i a) = []) (values : List α) :
    (values.mapIdx number).flatMap inner = [] := by
  rw [flatMap_numbered inner (fun _ => []) h]
  exact List.flatMap_eq_nil_iff.mpr fun _ _ => rfl

namespace Context

variable {context : Context}

theorem relationship_eq_ok {name : String} {relationship : Relationship} :
    context.relationship name = .ok relationship ↔
      Entries.get? name context.relationships = some relationship := by
  rw [Context.relationship]
  split <;> simp [*, pure_eq_ok, throw_ne_ok]

theorem storage_eq_ok {collection storage : String} :
    context.storage collection = .ok storage ↔
      context.schema.storage? collection = some storage := by
  rw [Context.storage]
  split <;> simp [*, pure_eq_ok, throw_ne_ok]

theorem boundValue_eq_ok {name : String} {value : Json} :
    context.boundValue name = .ok value ↔ Entries.get? name context.bindings = some value := by
  rw [Context.boundValue]
  split <;> simp [*, pure_eq_ok, throw_ne_ok]

/-- The declared type of a column of a collection. -/
def columnType? (context : Context) (collection column : String) : Option FieldType := do
  let row ← context.schema.rowType? collection
  return (← row.field? column).type

theorem columnType?_eq_some {collection column : String} {type : FieldType} :
    context.columnType? collection column = some type ↔
      ∃ row, context.schema.rowType? collection = some row ∧
        ∃ field, row.field? column = some field ∧ field.type = type := by
  simp only [columnType?, Option.bind_eq_bind, Option.bind_eq_some_iff, Option.pure_def,
    Option.some_inj]

theorem fieldType_eq_ok {collection column : String} {type : FieldType} :
    context.fieldType collection column = .ok type ↔
      context.columnType? collection column = some type := by
  rw [fieldType, columnType?]
  cases context.schema.rowType? collection with
  | none => exact ⟨nofun, nofun⟩
  | some row =>
    simp only [Option.bind_eq_bind, Option.bind_some]
    cases row.field? column with
    | none => exact ⟨nofun, nofun⟩
    | some field => exact pure_eq_ok.trans Option.some_inj.symm

end Context

/-- The column that a comparison names without a path. -/
def namedColumn? : ComparisonTarget → Option String
  | .column name [] => some name
  | _ => none

theorem comparedColumn_eq_ok {target : ComparisonTarget} {name : String} :
    comparedColumn target = .ok name ↔ namedColumn? target = some name := by
  cases target with
  | rootColumn other => exact ⟨nofun, nofun⟩
  | column other path =>
    cases path with
    | cons hop path => exact ⟨nofun, nofun⟩
    | nil => exact pure_eq_ok.trans Option.some_inj.symm

theorem operatorNamed_eq_ok {name : String} {operator : BinaryOperator} :
    operatorNamed name = .ok operator ↔ BinaryOperator.ofName? name = some operator := by
  rw [operatorNamed]
  split <;> simp [*, pure_eq_ok, throw_ne_ok]

theorem scalarOf_eq_ok {type : FieldType} {scalar : ScalarType} :
    scalarOf type = .ok scalar ↔ ScalarType.ofName? type.underlyingName = some scalar := by
  rw [scalarOf]
  split <;> simp [*, pure_eq_ok, throw_ne_ok]

theorem classify_eq_ok {type : FieldType} {usage : Usage} {result : Strategy} :
    classify type usage = .ok result ↔ ∃ scalar,
      ScalarType.ofName? type.underlyingName = some scalar ∧
        strategy scalar type.isArray usage = result := by
  simp only [classify, bind_eq_ok, scalarOf_eq_ok, pure_eq_ok]

/-- A plan is made of the selects of the root node. -/
theorem compile_eq_ok {schema : Schema} {request : Request} {bindings : VariableSet}
    {plan : Plan} :
    request.compile schema bindings = .ok plan ↔ ∃ result,
      root ⟨schema, request.relationships, bindings⟩ request.collection request.query =
        .ok result ∧ Plan.ofNode result = plan := by
  rw [Request.compile, bind_eq_ok]
  simp only [pure_eq_ok]

end NestedSql.Compile
