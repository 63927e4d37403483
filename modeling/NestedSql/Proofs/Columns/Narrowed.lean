import NestedSql.Proofs.Faults.Filters

/-!
# Schemas with fewer columns

A request that compiles is compiled again over a schema that stores the same collections and
declares no more columns. It compiles to the same plan, or it fails with a fault that names a column
which only the wider schema declares. This is shown for every function of the compiler: either both
go on with the same value or the second one has stopped at such a column.
-/

namespace NestedSql.Compile

open Sql (Condition Expr Table)

/-- Two contexts for one request, of which the second declares no more columns. -/
structure Context.Narrows (wide narrow : Context) : Prop where
  relationships : narrow.relationships = wide.relationships
  bindings : narrow.bindings = wide.bindings
  storage : ∀ collection, narrow.schema.storage? collection = wide.schema.storage? collection
  columns : ∀ collection column type, narrow.columnType? collection column = some type →
    wide.columnType? collection column = some type

/-- The fault reports a column that only the wider schema declares. -/
def Lacks (wide narrow : Context) (fault : CompileError) : Prop :=
  ∃ collection column type, wide.columnType? collection column = some type ∧
    narrow.columnType? collection column = none ∧ fault = narrow.undeclared collection column

theorem Lacks.kind {wide narrow : Context} {fault : CompileError} (h : Lacks wide narrow fault) :
    fault.kind = .configuration := by
  obtain ⟨collection, column, type, -, -, rfl⟩ := h
  rw [Context.undeclared]
  split <;> rfl

/-- If the first result is a value, the second is the same, or stops at a column that it lacks. -/
def Narrowed (wide narrow : Context) {α : Type} (first second : Except CompileError α) : Prop :=
  ∀ value, first = .ok value →
    second = .ok value ∨ ∃ fault, second = .error fault ∧ Lacks wide narrow fault

namespace Narrowed

variable {wide narrow : Context} {α β γ : Type} {first second : Except CompileError α}

theorem same (result : Except CompileError α) : Narrowed wide narrow result result :=
  fun _ h => .inl h

theorem bind {next later : α → Except CompileError β} (h : Narrowed wide narrow first second)
    (hnext : ∀ value, Narrowed wide narrow (next value) (later value)) :
    Narrowed wide narrow (first >>= next) (second >>= later) := by
  intro result hresult
  obtain ⟨value, hvalue, hresult⟩ := bind_eq_ok.mp hresult
  obtain rfl | ⟨fault, rfl, hlacks⟩ := h value hvalue
  · exact hnext value result hresult
  · exact .inr ⟨fault, rfl, hlacks⟩

theorem map (h : Narrowed wide narrow first second) (next : α → β) :
    Narrowed wide narrow (first >>= fun value => Except.ok (next value))
      (second >>= fun value => Except.ok (next value)) :=
  h.bind fun _ => same _

theorem mapM {step other : γ → Except CompileError α}
    (h : ∀ item, Narrowed wide narrow (step item) (other item)) (items : List γ) :
    Narrowed wide narrow (items.mapM step) (items.mapM other) := by
  induction items with
  | nil => exact same _
  | cons item items ih =>
    rw [List.mapM_cons, List.mapM_cons]
    exact (h item).bind fun value => ih.map _

theorem optionMapM {step other : γ → Except CompileError α}
    (h : ∀ item, Narrowed wide narrow (step item) (other item)) (value : Option γ) :
    Narrowed wide narrow (value.mapM step) (value.mapM other) := by
  cases value with
  | none => exact same _
  | some item =>
    rw [Option.mapM_some, Option.mapM_some]
    exact (h item).map _

theorem foldlM {step other : α → γ → Except CompileError α}
    (h : ∀ state item, Narrowed wide narrow (step state item) (other state item))
    (items : List γ) :
    ∀ state, Narrowed wide narrow (items.foldlM step state) (items.foldlM other state) := by
  induction items with
  | nil => exact fun _ => same _
  | cons item items ih =>
    intro state
    rw [List.foldlM_cons, List.foldlM_cons]
    exact (h state item).bind ih

end Narrowed

section Compilation

variable {wide narrow : Context}

/-! ## Look-ups -/

theorem relationship_narrowed (h : wide.Narrows narrow) (name : String) :
    Narrowed wide narrow (wide.relationship name) (narrow.relationship name) := by
  rw [Context.relationship, Context.relationship, h.relationships]
  exact .same _

theorem storage_narrowed (h : wide.Narrows narrow) (collection : String) :
    Narrowed wide narrow (wide.storage collection) (narrow.storage collection) := by
  rw [Context.storage, Context.storage, h.storage]
  exact .same _

theorem comparedValue_narrowed (h : wide.Narrows narrow) : (value : ComparisonValue) →
    Narrowed wide narrow (comparedValue wide value) (comparedValue narrow value)
  | .scalar _ => .same _
  | .column _ => .same _
  | .variable name => by
    rw [comparedValue, comparedValue, Context.boundValue, Context.boundValue, h.bindings]
    exact .same _

/-- A column is looked up alike, or it is one that the smaller schema lacks. -/
theorem fieldType_narrowed (h : wide.Narrows narrow) (collection column : String) :
    Narrowed wide narrow (wide.fieldType collection column)
      (narrow.fieldType collection column) := by
  intro type htype
  rw [Context.fieldType_eq_ok] at htype
  cases hnarrow : narrow.columnType? collection column with
  | none =>
    have hfault : firstFault? [narrow.declaredCheck collection column] =
        some (narrow.undeclared collection column) := by
      rw [Context.declaredCheck, hnarrow]
      rfl
    exact .inr ⟨_, ((fieldType_reports collection column).error_iff _).mpr hfault,
      collection, column, type, htype, hnarrow, rfl⟩
  | some other =>
    have hother := h.columns collection column other hnarrow
    rw [htype] at hother
    obtain rfl := Option.some.inj hother
    exact .inl (Context.fieldType_eq_ok.mpr hnarrow)

/-- A declared column with its strategy. -/
theorem classified_narrowed {α : Type} (h : wide.Narrows narrow) (collection column : String)
    (usage : Usage) (build : Strategy → α) :
    Narrowed wide narrow
      (do
        let type ← wide.fieldType collection column
        return build (← classify type usage))
      (do
        let type ← narrow.fieldType collection column
        return build (← classify type usage)) :=
  (fieldType_narrowed h collection column).bind fun _ => .same _

/-! ## Filters -/

theorem comparison_narrowed (h : wide.Narrows narrow) (scope : Scope)
    (target : ComparisonTarget) (operator : String) (value : ComparisonValue) :
    Narrowed wide narrow (comparison wide scope target operator value)
      (comparison narrow scope target operator value) := by
  rw [comparison, comparison]
  refine (Narrowed.same _).bind fun op => (Narrowed.same _).bind fun column => ?_
  refine (fieldType_narrowed h scope.collection column).bind fun type => ?_
  exact (Narrowed.same _).bind fun shape => (comparedValue_narrowed h value).map _

mutual

theorem predicate_narrowed (h : wide.Narrows narrow) : (scope : Scope) → (filter : Expression) →
    Narrowed wide narrow (predicate wide scope filter) (predicate narrow scope filter)
  | scope, .and parts => by
    rw [predicate, predicate]
    exact (predicates_narrowed h scope parts).map _
  | scope, .or parts => by
    rw [predicate, predicate]
    exact (predicates_narrowed h scope parts).map _
  | scope, .not part => by
    rw [predicate, predicate]
    exact (predicate_narrowed h scope part).map _
  | scope, .unary target .isNull => by
    rw [predicate, predicate]
    exact (Narrowed.same _).bind fun column =>
      (fieldType_narrowed h scope.collection column).map _
  | scope, .binary target operator value => by
    rw [predicate, predicate]
    exact comparison_narrowed h scope target operator value
  | scope, .existsIn (.unrelated collection) filter => by
    rw [predicate, predicate]
    exact .same _
  | scope, .existsIn (.related name) filter => by
    rw [predicate, predicate]
    refine (relationship_narrowed h name).bind fun relationship => ?_
    refine (storage_narrowed h relationship.target).bind fun storage => ?_
    exact (existsCondition_narrowed h (scope.existing relationship.target) filter).map _

theorem existsCondition_narrowed (h : wide.Narrows narrow) : (scope : Scope) →
    (filter : Option Expression) →
    Narrowed wide narrow (existsCondition wide scope filter) (existsCondition narrow scope filter)
  | scope, none => by
    rw [existsCondition, existsCondition]
    exact .same _
  | scope, some filter => by
    rw [existsCondition, existsCondition]
    exact (predicate_narrowed h scope filter).map _

theorem predicates_narrowed (h : wide.Narrows narrow) : (scope : Scope) →
    (parts : List Expression) →
    Narrowed wide narrow (predicates wide scope parts) (predicates narrow scope parts)
  | scope, [] => by
    rw [predicates, predicates]
    exact .same _
  | scope, part :: parts => by
    rw [predicates, predicates]
    exact (predicate_narrowed h scope part).bind fun _ => (predicates_narrowed h scope parts).map _

end

theorem nodeConditions_narrowed (h : wide.Narrows narrow) (scope : Scope) (parent : Option Parent)
    (filter : Option Expression) :
    Narrowed wide narrow (nodeConditions wide scope parent filter)
      (nodeConditions narrow scope parent filter) := by
  cases filter with
  | none =>
    rw [nodeConditions_none, nodeConditions_none]
    exact .same _
  | some filter =>
    rw [nodeConditions_some, nodeConditions_some]
    exact (predicate_narrowed h scope filter).map _

/-! ## Orders -/

theorem hopConditions_narrowed (h : wide.Narrows narrow) (source target : Scope)
    (relationship : Relationship) (filter : Option Expression) :
    Narrowed wide narrow (hopConditions wide source target relationship filter)
      (hopConditions narrow source target relationship filter) := by
  cases filter with
  | none => exact .same _
  | some filter => exact (predicate_narrowed h target filter).bind fun _ => .same _

theorem followHop_narrowed (h : wide.Narrows narrow) (state : Scope × Ordering)
    (hop : PathElement) :
    Narrowed wide narrow (followHop wide state hop) (followHop narrow state hop) := by
  rw [followHop, followHop]
  refine (relationship_narrowed h hop.relationship).bind fun relationship => ?_
  dsimp only
  split
  · exact .same _
  · refine (storage_narrowed h relationship.target).bind fun storage => ?_
    exact (hopConditions_narrowed h _ _ relationship hop.predicate).map _

theorem addElement_narrowed (h : wide.Narrows narrow) (scope : Scope) (ordering : Ordering)
    (element : OrderByElement) :
    Narrowed wide narrow (addElement wide scope ordering element)
      (addElement narrow scope ordering element) := by
  obtain ⟨direction, target⟩ := element
  cases target with
  | column name path =>
    have hpath := Narrowed.foldlM (followHop_narrowed h) path (scope, ordering)
    exact hpath.bind fun reached => classified_narrowed h reached.1.collection name .ordering _
  | singleColumnAggregate column function path => exact .same _
  | starCountAggregate path => exact .same _

theorem ordering_narrowed (h : wide.Narrows narrow) (scope : Scope) (orderBy : Option OrderBy) :
    Narrowed wide narrow (ordering wide scope orderBy) (ordering narrow scope orderBy) := by
  cases orderBy with
  | none => exact .same _
  | some orderBy => exact .foldlM (addElement_narrowed h scope) orderBy.elements .empty

/-! ## Nodes -/

theorem dimension_narrowed (h : wide.Narrows narrow) (scope : Scope) : (entry : Dimension) →
    Narrowed wide narrow (dimension wide scope entry) (dimension narrow scope entry)
  | .column name [] => classified_narrowed h scope.collection name .projection _
  | .column _ (_ :: _) => .same _

theorem groups_narrowed (h : wide.Narrows narrow) (scope : Scope) (table : Table)
    (conditions : List Condition) (grouping : Grouping) :
    Narrowed wide narrow (groups wide scope table conditions grouping)
      (groups narrow scope table conditions grouping) := by
  rw [groups, groups]
  exact (Narrowed.mapM (dimension_narrowed h scope) grouping.dimensions).bind fun _ => .same _

mutual

/-- A query over fewer columns compiles alike, or stops at a column that is missing. -/
theorem node_narrowed (h : wide.Narrows narrow) : (collection : String) → (path : AliasPath) →
    (parent : Option Parent) → (query : Query) →
    Narrowed wide narrow (node wide collection path parent query)
      (node narrow collection path parent query)
  | collection, path, parent, ⟨fields, aggregates, limit, offset, orderBy, filter, groups?⟩ => by
    rw [node, node]
    refine (Narrowed.same _).bind fun _ => ?_
    refine (storage_narrowed h collection).bind fun storage => ?_
    refine (nodeConditions_narrowed h _ parent filter).bind fun conditions => ?_
    refine (ordering_narrowed h _ orderBy).bind fun ordering => ?_
    refine (rowObject_narrowed h _ path fields).bind fun row => ?_
    refine (Narrowed.same _).bind fun aggregated => ?_
    exact (Narrowed.optionMapM (groups_narrowed h _ _ conditions) groups?).map _

theorem rowObject_narrowed (h : wide.Narrows narrow) : (scope : Scope) → (path : AliasPath) →
    (fields : Option (List (String × Field))) →
    Narrowed wide narrow (rowObject wide scope path fields) (rowObject narrow scope path fields)
  | scope, path, none => by
    rw [rowObject, rowObject]
    exact .same _
  | scope, path, some fields => by
    rw [rowObject, rowObject]
    exact (fieldMembers_narrowed h scope path fields).map _

theorem fieldMembers_narrowed (h : wide.Narrows narrow) : (scope : Scope) → (path : AliasPath) →
    (fields : List (String × Field)) →
    Narrowed wide narrow (fieldMembers wide scope path fields)
      (fieldMembers narrow scope path fields)
  | scope, path, [] => by
    rw [fieldMembers, fieldMembers]
    exact .same _
  | scope, path, (name, field) :: fields => by
    rw [fieldMembers, fieldMembers]
    exact (fieldExpr_narrowed h scope path field).bind fun _ =>
      (fieldMembers_narrowed h scope path fields).map _

theorem fieldExpr_narrowed (h : wide.Narrows narrow) : (scope : Scope) → (path : AliasPath) →
    (field : Field) →
    Narrowed wide narrow (fieldExpr wide scope path field) (fieldExpr narrow scope path field)
  | scope, path, .column name => by
    rw [fieldExpr, fieldExpr, columnExpr, columnExpr]
    exact classified_narrowed h scope.collection name .projection _
  | scope, path, .relationship name query => by
    rw [fieldExpr, fieldExpr]
    refine (relationship_narrowed h name).bind fun relationship => ?_
    exact (node_narrowed h relationship.target _ _ query).map _

end

end Compilation

end NestedSql.Compile
