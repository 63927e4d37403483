import NestedSql.Proofs.Compile.Steps

/-!
# Faults of requests

The fault that a compilation answers with says something of names: a column is not declared, a
scalar has no rules, a collection is not stored. What it says is so, in every part of a request
and at every depth. Which of several faults is answered is not said here.
-/

namespace NestedSql

/-- What the fault says of names is so. -/
def CompileError.Accurate (context : Compile.Context) : CompileError → Prop
  | .unknownOperator name => BinaryOperator.ofName? name = none
  | .unknownFunction name => AggregateFunction.ofName? name = none
  | .unknownScalar name => ScalarType.ofName? name = none ∧ ∃ collection column type,
      context.columnType? collection column = some type ∧ type.underlyingName = name
  | .relationshipNotFound name => Entries.get? name context.relationships = none
  | .storageNotFound collection => context.schema.storage? collection = none
  | .collectionNotFound collection => context.schema.rowType? collection = none
  | .columnNotFound column collection => context.columnType? collection column = none
  | .variableNotBound name => Entries.get? name context.bindings = none
  | _ => True

namespace Compile

/-- The step answers with no fault but an accurate one. -/
def Truthful {α : Type} (context : Context) (result : Except CompileError α) : Prop :=
  ∀ fault, result = .error fault → fault.Accurate context

namespace Truthful

variable {context : Context} {α β γ : Type} {result : Except CompileError α}

theorem ok (value : α) : Truthful context (.ok value) := nofun

theorem error {fault : CompileError} (h : fault.Accurate context) :
    Truthful context (.error fault : Except CompileError α) := by
  rintro _ ⟨⟩
  exact h

theorem bind {next : α → Except CompileError β} (h : Truthful context result)
    (hnext : ∀ value, result = .ok value → Truthful context (next value)) :
    Truthful context (result >>= next) := by
  cases result with
  | error fault => exact .error (h fault rfl)
  | ok value => exact hnext value rfl

theorem map {next : α → β} (h : Truthful context result) :
    Truthful context (result >>= fun value => Except.ok (next value)) :=
  h.bind fun value _ => .ok (next value)

theorem mapM {step : γ → Except CompileError α} (h : ∀ item, Truthful context (step item))
    (items : List γ) : Truthful context (items.mapM step) := by
  induction items with
  | nil => exact .ok []
  | cons item items ih =>
    rw [List.mapM_cons]
    exact (h item).bind fun value _ => ih.map

theorem optionMapM {step : γ → Except CompileError α} (h : ∀ item, Truthful context (step item))
    (value : Option γ) : Truthful context (value.mapM step) := by
  cases value with
  | none => exact .ok none
  | some item =>
    rw [Option.mapM_some]
    exact (h item).map

theorem foldlM {step : α → γ → Except CompileError α}
    (h : ∀ state item, Truthful context (step state item)) (items : List γ) :
    ∀ state, Truthful context (items.foldlM step state) := by
  induction items with
  | nil => exact .ok
  | cons item items ih =>
    intro state
    rw [List.foldlM_cons]
    exact (h state item).bind fun next _ => ih next

end Truthful

/-! ## Look-ups -/

section Lookups

variable (context : Context)

theorem relationship_truthful (name : String) :
    Truthful context (context.relationship name) := by
  rw [Context.relationship]
  split
  · exact .ok _
  · next h => exact .error h

theorem storage_truthful (collection : String) :
    Truthful context (context.storage collection) := by
  rw [Context.storage]
  split
  · exact .ok _
  · next h => exact .error h

theorem fieldType_truthful (collection column : String) :
    Truthful context (context.fieldType collection column) := by
  rw [Context.fieldType]
  split
  · next h => exact .error h
  · next type htype =>
    split
    · exact .ok _
    · next hfield =>
      refine .error ?_
      show context.columnType? collection column = none
      simp [Context.columnType?, htype, hfield]

theorem classify_truthful {collection column : String} {type : FieldType}
    (h : context.columnType? collection column = some type) (usage : Usage) :
    Truthful context (classify type usage) := by
  rw [classify, scalarOf]
  split
  · exact .ok _
  · next hscalar => exact .error ⟨hscalar, collection, column, type, h, rfl⟩

/-- A declared column with its strategy. -/
theorem classified_truthful {α : Type} (collection column : String) (usage : Usage)
    (build : Strategy → α) :
    Truthful context (do
      let type ← context.fieldType collection column
      return build (← classify type usage)) :=
  (fieldType_truthful context collection column).bind fun _ htype =>
    (classify_truthful context (Context.fieldType_eq_ok.mp htype) usage).map

end Lookups

/-! ## Filters -/

section Filters

variable (context : Context)

theorem operatorNamed_truthful (name : String) : Truthful context (operatorNamed name) := by
  rw [operatorNamed]
  split
  · exact .ok _
  · next h => exact .error h

theorem comparedColumn_truthful : (target : ComparisonTarget) →
    Truthful context (comparedColumn target)
  | .column _ [] => .ok _
  | .column _ (_ :: _) => .error trivial
  | .rootColumn _ => .error trivial

theorem comparedValue_truthful : (value : ComparisonValue) →
    Truthful context (comparedValue context value)
  | .scalar _ => .ok _
  | .column _ => .error trivial
  | .variable name => by
    rw [comparedValue, Context.boundValue]
    split
    · exact .ok _
    · next h => exact .error h

theorem comparison_truthful (scope : Scope) (target : ComparisonTarget) (operator : String)
    (value : ComparisonValue) :
    Truthful context (comparison context scope target operator value) := by
  rw [comparison]
  refine (operatorNamed_truthful context operator).bind fun op _ => ?_
  refine (comparedColumn_truthful context target).bind fun column _ => ?_
  refine (fieldType_truthful context scope.collection column).bind fun type htype => ?_
  refine Truthful.bind ?shape fun shape _ => (comparedValue_truthful context value).map
  case shape =>
    rw [comparedShape]
    split
    · exact .ok _
    · exact (classify_truthful context (Context.fieldType_eq_ok.mp htype) .comparison).map

mutual

/-- A filter answers with accurate faults only. -/
theorem predicate_truthful : (scope : Scope) → (filter : Expression) →
    Truthful context (predicate context scope filter)
  | scope, .and parts => by
    rw [predicate]
    exact (predicates_truthful scope parts).map
  | scope, .or parts => by
    rw [predicate]
    exact (predicates_truthful scope parts).map
  | scope, .not part => by
    rw [predicate]
    exact (predicate_truthful scope part).map
  | scope, .unary target .isNull => by
    rw [predicate]
    exact (comparedColumn_truthful context target).bind fun column _ =>
      (fieldType_truthful context scope.collection column).map
  | scope, .binary target operator value => by
    rw [predicate]
    exact comparison_truthful context scope target operator value
  | scope, .existsIn (.unrelated collection) filter => by
    rw [predicate]
    exact .error trivial
  | scope, .existsIn (.related name) filter => by
    rw [predicate]
    refine (relationship_truthful context name).bind fun relationship _ => ?_
    refine (storage_truthful context relationship.target).bind fun storage _ => ?_
    exact (existsCondition_truthful (scope.existing relationship.target) filter).map

theorem existsCondition_truthful : (scope : Scope) → (filter : Option Expression) →
    Truthful context (existsCondition context scope filter)
  | scope, none => by
    rw [existsCondition]
    exact .ok _
  | scope, some filter => by
    rw [existsCondition]
    exact (predicate_truthful scope filter).map

theorem predicates_truthful : (scope : Scope) → (parts : List Expression) →
    Truthful context (predicates context scope parts)
  | scope, [] => by
    rw [predicates]
    exact .ok _
  | scope, part :: parts => by
    rw [predicates]
    exact (predicate_truthful scope part).bind fun _ _ => (predicates_truthful scope parts).map

end

theorem nodeConditions_truthful (scope : Scope) (parent : Option Parent)
    (filter : Option Expression) :
    Truthful context (nodeConditions context scope parent filter) := by
  cases filter with
  | none =>
    rw [nodeConditions_none]
    exact .ok _
  | some filter =>
    rw [nodeConditions_some]
    exact (predicate_truthful context scope filter).map

end Filters

/-! ## Orders -/

section Orders

variable (context : Context)

theorem hopConditions_truthful (source target : Scope) (relationship : Relationship)
    (filter : Option Expression) :
    Truthful context (hopConditions context source target relationship filter) := by
  cases filter with
  | none => exact .ok _
  | some filter => exact (predicate_truthful context target filter).map

theorem followHop_truthful (state : Scope × Ordering) (hop : PathElement) :
    Truthful context (followHop context state hop) := by
  rw [followHop]
  refine (relationship_truthful context hop.relationship).bind fun relationship _ => ?_
  dsimp only
  split
  · exact .ok _
  · refine (storage_truthful context relationship.target).bind fun storage _ => ?_
    exact (hopConditions_truthful context _ _ relationship hop.predicate).map

theorem addElement_truthful (scope : Scope) (ordering : Ordering) (element : OrderByElement) :
    Truthful context (addElement context scope ordering element) := by
  obtain ⟨direction, target⟩ := element
  cases target with
  | column name path =>
    have hpath := Truthful.foldlM (followHop_truthful context) path (scope, ordering)
    exact hpath.bind fun reached _ => classified_truthful context _ name .ordering _
  | singleColumnAggregate column function path => exact .error trivial
  | starCountAggregate path => exact .error trivial

theorem ordering_truthful (scope : Scope) (orderBy : Option OrderBy) :
    Truthful context (ordering context scope orderBy) := by
  cases orderBy with
  | none => exact .ok _
  | some orderBy => exact .foldlM (addElement_truthful context scope) orderBy.elements .empty

end Orders

/-! ## Aggregates and groups -/

section Groups

variable (context : Context)

theorem summary_truthful (tableAlias : String) : (aggregate : Aggregate) →
    Truthful context (summary tableAlias aggregate)
  | .starCount => .ok _
  | .columnCount _ _ => .ok _
  | .singleColumn column name => by
    rw [summary]
    split
    · exact .ok _
    · next h => exact .error h

theorem summaries_truthful (entries : Entries Aggregate) (tableAlias : String) :
    Truthful context (summaries entries tableAlias) := by
  refine Truthful.mapM (fun entry => ?_) entries
  exact (summary_truthful context tableAlias entry.2).map

theorem dimension_truthful (scope : Scope) : (entry : Dimension) →
    Truthful context (dimension context scope entry)
  | .column name [] => classified_truthful context scope.collection name .projection _
  | .column _ (_ :: _) => .error trivial

theorem groups_truthful (scope : Scope) (table : Sql.Table) (conditions : List Sql.Condition)
    (grouping : Grouping) :
    Truthful context (groups context scope table conditions grouping) := by
  rw [groups]
  exact (Truthful.mapM (dimension_truthful context scope) grouping.dimensions).bind fun _ _ =>
    (summaries_truthful context grouping.aggregates scope.tableAlias).map

theorem checkRequested_truthful (hasFields hasAggregates : Bool) (groups? : Option Grouping) :
    Truthful context (checkRequested hasFields hasAggregates groups?) := by
  cases groups? with
  | none => cases hasFields <;> cases hasAggregates <;> first | exact .ok _ | exact .error trivial
  | some grouping =>
    obtain ⟨dimensions, aggregates, predicate, orderBy, limit, offset⟩ := grouping
    cases predicate <;> cases orderBy <;> cases hasFields <;> cases hasAggregates <;>
      first | exact .ok _ | exact .error trivial

end Groups

/-! ## Nodes -/

mutual

/-- A query answers with accurate faults only. -/
theorem node_truthful (context : Context) : (collection : String) → (path : AliasPath) →
    (parent : Option Parent) → (query : Query) →
    Truthful context (node context collection path parent query)
  | collection, path, parent, ⟨fields, aggregates, limit, offset, orderBy, filter, groups?⟩ => by
    rw [node]
    refine (checkRequested_truthful context _ _ groups?).bind fun _ _ => ?_
    refine (storage_truthful context collection).bind fun storage _ => ?_
    refine (nodeConditions_truthful context _ parent filter).bind fun conditions _ => ?_
    refine (ordering_truthful context _ orderBy).bind fun ordering _ => ?_
    refine (rowObject_truthful context _ path fields).bind fun row _ => ?_
    refine Truthful.bind (Truthful.optionMapM (fun entries => ?_) aggregates) fun _ _ => ?_
    · exact (summaries_truthful context entries subqueryAlias).map
    exact (Truthful.optionMapM (groups_truthful context _ _ conditions) groups?).map

theorem rowObject_truthful (context : Context) : (scope : Scope) → (path : AliasPath) →
    (fields : Option (List (String × Field))) →
    Truthful context (rowObject context scope path fields)
  | scope, path, none => by
    rw [rowObject]
    exact .ok _
  | scope, path, some fields => by
    rw [rowObject]
    exact (fieldMembers_truthful context scope path fields).map

theorem fieldMembers_truthful (context : Context) : (scope : Scope) → (path : AliasPath) →
    (fields : List (String × Field)) →
    Truthful context (fieldMembers context scope path fields)
  | scope, path, [] => by
    rw [fieldMembers]
    exact .ok _
  | scope, path, (name, field) :: fields => by
    rw [fieldMembers]
    exact (fieldExpr_truthful context scope path field).bind fun _ _ =>
      (fieldMembers_truthful context scope path fields).map

theorem fieldExpr_truthful (context : Context) : (scope : Scope) → (path : AliasPath) →
    (field : Field) → Truthful context (fieldExpr context scope path field)
  | scope, path, .column name => by
    rw [fieldExpr, columnExpr]
    exact classified_truthful context scope.collection name .projection _
  | scope, path, .relationship name query => by
    rw [fieldExpr]
    refine (relationship_truthful context name).bind fun relationship _ => ?_
    exact (node_truthful context relationship.target _ _ query).map

end

/-- The fault of a request is accurate. -/
theorem compile_truthful (schema : Schema) (request : Request) (bindings : VariableSet) :
    Truthful ⟨schema, request.relationships, bindings⟩ (request.compile schema bindings) :=
  (node_truthful _ request.collection _ none request.query).map

end Compile

end NestedSql
