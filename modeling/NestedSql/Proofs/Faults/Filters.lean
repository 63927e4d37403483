import NestedSql.Proofs.Compile.Steps

/-!
# Faults of filters

A filter is well formed for a collection if every node of it is: columns stand without a path and
are declared, operators are known, the scalar of a column is known unless a pattern is compared
with it, values are given, and existence tests follow a known relationship to a stored collection
for which their own filter is well formed. The checks of a filter stand in the order in which its
nodes are written, those of a node from the outside in. A filter compiles exactly if it is well
formed, and otherwise the answer is the fault of the first check that fails.
-/

namespace NestedSql

/-- Something that is checked, and what is reported if it fails. -/
structure Check where
  passes : Bool
  fault : CompileError

/-- The fault of the first check that fails. -/
def firstFault? (checks : List Check) : Option CompileError :=
  (checks.find? fun check => !check.passes).map Check.fault

/-- No check fails. -/
def AllPass (checks : List Check) : Prop := ∀ check ∈ checks, check.passes = true

section Checks

variable {checks others : List Check}

@[simp] theorem allPass_nil : AllPass [] := List.forall_mem_nil _

@[simp] theorem allPass_cons {check : Check} :
    AllPass (check :: checks) ↔ check.passes = true ∧ AllPass checks :=
  List.forall_mem_cons

@[simp] theorem allPass_append :
    AllPass (checks ++ others) ↔ AllPass checks ∧ AllPass others :=
  List.forall_mem_append

theorem firstFault?_append :
    firstFault? (checks ++ others) = (firstFault? checks).or (firstFault? others) := by
  rw [firstFault?, List.find?_append, Option.map_or, firstFault?, firstFault?]

theorem firstFault?_eq_none : firstFault? checks = none ↔ AllPass checks := by
  rw [firstFault?, Option.map_eq_none_iff, List.find?_eq_none]
  simp [AllPass]

end Checks

/-! ## Checks of a filter -/

/-- The operators that compare by value. -/
def comparisonNames : List String := ["_eq", "_neq", "_gt", "_lt", "_gte", "_lte"]

/-- The operators that compare with a pattern. -/
def patternNames : List String := ["_like", "_glob"]

/-- The name of a compared column. -/
def ComparisonTarget.name : ComparisonTarget → String
  | .column name _ | .rootColumn name => name

/-- A compared column stands without a path. -/
def ComparisonTarget.formCheck : ComparisonTarget → Check
  | .column name path => ⟨path.isEmpty, .columnThroughPath name⟩
  | .rootColumn name => ⟨false, .rootColumn name⟩

namespace Compile

namespace Context

variable (context : Context)

/-- What is reported of a column that is not declared. -/
def undeclared (collection column : String) : CompileError :=
  if (context.schema.rowType? collection).isSome then .columnNotFound column collection
  else .collectionNotFound collection

def relationshipCheck (name : String) : Check :=
  ⟨(Entries.get? name context.relationships).isSome, .relationshipNotFound name⟩

def storageCheck (collection : String) : Check :=
  ⟨(context.schema.storage? collection).isSome, .storageNotFound collection⟩

def declaredCheck (collection column : String) : Check :=
  ⟨(context.columnType? collection column).isSome, context.undeclared collection column⟩

/-- The scalar of a declared column is known, unless a pattern is compared with the column. -/
def scalarChecks (collection column operator : String) : List Check :=
  match context.columnType? collection column with
  | none => []
  | some type =>
    [⟨patternNames.contains operator || (ScalarType.ofName? type.underlyingName).isSome,
      .unknownScalar type.underlyingName⟩]

def valueChecks : ComparisonValue → List Check
  | .scalar _ => []
  | .variable name => [⟨(Entries.get? name context.bindings).isSome, .variableNotBound name⟩]
  | .column _ => [⟨false, .comparisonWithColumn⟩]

end Context

/-- The operator of a comparison is known. -/
def operatorCheck (operator : String) : Check :=
  ⟨(comparisonNames ++ patternNames).contains operator, .unknownOperator operator⟩

mutual

/-- The checks of a filter for a collection, from left to right and from the outside in. -/
def filterChecks (context : Context) (collection : String) : Expression → List Check
  | .and parts | .or parts => partsChecks context collection parts
  | .not part => filterChecks context collection part
  | .unary target _ => [target.formCheck, context.declaredCheck collection target.name]
  | .binary target operator value =>
    [operatorCheck operator, target.formCheck, context.declaredCheck collection target.name] ++
      context.scalarChecks collection target.name operator ++ context.valueChecks value
  | .existsIn (.unrelated other) _ => [⟨false, .unrelatedExists other⟩]
  | .existsIn (.related name) filter =>
    context.relationshipCheck name ::
      match Entries.get? name context.relationships with
      | none => []
      | some relationship =>
        context.storageCheck relationship.target ::
          optionalChecks context relationship.target filter

def optionalChecks (context : Context) (collection : String) : Option Expression → List Check
  | none => []
  | some filter => filterChecks context collection filter

def partsChecks (context : Context) (collection : String) : List Expression → List Check
  | [] => []
  | part :: parts => filterChecks context collection part ++ partsChecks context collection parts

end

/-! ## Well-formed filters -/

/-- The column stands without a path and is declared for the collection. -/
def ColumnWellFormed (context : Context) (collection : String) (target : ComparisonTarget)
    (holds : FieldType → Prop) : Prop :=
  ∃ column type, target = .column column [] ∧
    context.columnType? collection column = some type ∧ holds type

/-- The value is written in the filter or bound to its variable. -/
def ValueGiven (context : Context) (value : ComparisonValue) : Prop :=
  (∃ scalar, value = .scalar scalar) ∨
    ∃ name bound, value = .variable name ∧ Entries.get? name context.bindings = some bound

mutual

/-- Every node of the filter is well formed for its collection. -/
def FilterWellFormed (context : Context) (collection : String) : Expression → Prop
  | .and parts | .or parts => PartsWellFormed context collection parts
  | .not part => FilterWellFormed context collection part
  | .unary target _ => ColumnWellFormed context collection target fun _ => True
  | .binary target operator value =>
    operator ∈ comparisonNames ++ patternNames ∧
      (ColumnWellFormed context collection target fun type =>
        operator ∉ patternNames → ∃ scalar : ScalarType, scalar.name = type.underlyingName) ∧
      ValueGiven context value
  | .existsIn (.unrelated _) _ => False
  | .existsIn (.related name) filter =>
    ∃ relationship storage, Entries.get? name context.relationships = some relationship ∧
      context.schema.storage? relationship.target = some storage ∧
      OptionalWellFormed context relationship.target filter

def OptionalWellFormed (context : Context) (collection : String) : Option Expression → Prop
  | none => True
  | some filter => FilterWellFormed context collection filter

def PartsWellFormed (context : Context) (collection : String) : List Expression → Prop
  | [] => True
  | part :: parts =>
    FilterWellFormed context collection part ∧ PartsWellFormed context collection parts

end

/-! ## Reports -/

/-- The step succeeds if all checks pass, and reports the first one that fails. -/
inductive Reports {α : Type} (checks : List Check) : Except CompileError α → Prop where
  | ok {value : α} : firstFault? checks = none → Reports checks (.ok value)
  | error {fault : CompileError} : firstFault? checks = some fault → Reports checks (.error fault)

namespace Reports

variable {α β : Type} {checks others : List Check} {result : Except CompileError α}

theorem pure (value : α) : Reports [] (Except.ok value) := .ok rfl

/-- The checks of what follows come behind those of a step. -/
theorem bind {next : α → Except CompileError β} (h : Reports checks result)
    (hnext : ∀ value, result = .ok value → Reports others (next value)) :
    Reports (checks ++ others) (result >>= next) := by
  cases h with
  | error hfault =>
    refine .error ?_
    rw [firstFault?_append, hfault, Option.some_or]
  | @ok value hpass =>
    have hrest : firstFault? (checks ++ others) = firstFault? others := by
      rw [firstFault?_append, hpass, Option.none_or]
    have hvalue := hnext value rfl
    show Reports (checks ++ others) (next value)
    generalize next value = later at hvalue ⊢
    cases hvalue with
    | ok hothers => exact .ok (hrest.trans hothers)
    | error hothers => exact .error (hrest.trans hothers)

/-- What is built from the value of the last step needs no check. -/
theorem map {next : α → β} (h : Reports checks result) :
    Reports checks (result >>= fun value => Except.ok (next value)) := by
  have hnext := h.bind fun value _ => Reports.pure (next value)
  rwa [List.append_nil] at hnext

theorem error_iff (h : Reports checks result) (fault : CompileError) :
    result = .error fault ↔ firstFault? checks = some fault := by
  cases h with
  | ok hpass => simp [hpass]
  | error hfault => simp [hfault]

theorem ok_iff (h : Reports checks result) :
    (∃ value, result = .ok value) ↔ AllPass checks := by
  rw [← firstFault?_eq_none]
  cases h with
  | ok hpass => simp [hpass]
  | error hfault => simp [hfault]

end Reports

section Steps

variable {context : Context} {scope : Scope}

theorem relationship_reports (name : String) :
    Reports [context.relationshipCheck name] (context.relationship name) := by
  rw [Context.relationshipCheck, Context.relationship]
  cases Entries.get? name context.relationships with
  | none => exact .error rfl
  | some relationship => exact .ok rfl

theorem storage_reports (collection : String) :
    Reports [context.storageCheck collection] (context.storage collection) := by
  rw [Context.storageCheck, Context.storage]
  cases context.schema.storage? collection with
  | none => exact .error rfl
  | some storage => exact .ok rfl

theorem fieldType_reports (collection column : String) :
    Reports [context.declaredCheck collection column] (context.fieldType collection column) := by
  rw [Context.declaredCheck, Context.fieldType, Context.columnType?, Context.undeclared]
  cases context.schema.rowType? collection with
  | none => exact .error rfl
  | some row =>
    simp only [Option.bind_eq_bind, Option.bind_some]
    cases row.field? column with
    | none => exact .error rfl
    | some field => exact .ok rfl

theorem contains_operators (operator : String) :
    (comparisonNames ++ patternNames).contains operator =
      (BinaryOperator.ofName? operator).isSome := by
  rw [Bool.eq_iff_iff, BinaryOperator.ofName?, List.lookup_isSome_iff, List.contains_iff_mem]
  simp [comparisonNames, patternNames, BinaryOperator.table]

/-- The operators with a pattern are those with a name for it. -/
theorem contains_patterns {operator : String} {op : BinaryOperator}
    (h : BinaryOperator.ofName? operator = some op) :
    patternNames.contains operator = op.isPattern := by
  obtain ⟨before, after, htable, -⟩ := List.lookup_eq_some_iff.mp h
  have hmem : (operator, op) ∈ BinaryOperator.table := by
    rw [htable]
    exact List.mem_append_right _ List.mem_cons_self
  have hall : ∀ entry ∈ BinaryOperator.table,
      patternNames.contains entry.1 = entry.2.isPattern := by decide
  exact hall (operator, op) hmem

theorem operatorNamed_reports (operator : String) :
    Reports [operatorCheck operator] (operatorNamed operator) := by
  rw [operatorCheck, contains_operators, operatorNamed]
  cases BinaryOperator.ofName? operator with
  | none => exact .error rfl
  | some op => exact .ok rfl

theorem comparedColumn_reports (target : ComparisonTarget) :
    Reports [target.formCheck] (comparedColumn target) := by
  cases target with
  | rootColumn name => exact .error rfl
  | column name path =>
    cases path with
    | nil => exact .ok rfl
    | cons hop path => exact .error rfl

theorem name_of_compared {target : ComparisonTarget} {column : String}
    (h : comparedColumn target = .ok column) : target = .column column [] := by
  have hnamed := comparedColumn_eq_ok.mp h
  cases target with
  | rootColumn name => cases hnamed
  | column name path =>
    cases path with
    | nil => rw [Option.some.inj hnamed]
    | cons hop path => cases hnamed

theorem scalarOf_reports (type : FieldType) :
    Reports [⟨(ScalarType.ofName? type.underlyingName).isSome,
      .unknownScalar type.underlyingName⟩] (scalarOf type) := by
  rw [scalarOf]
  cases ScalarType.ofName? type.underlyingName with
  | none => exact .error rfl
  | some scalar => exact .ok rfl

theorem comparedShape_reports {collection column operator : String} {type : FieldType}
    {op : BinaryOperator} (htype : context.columnType? collection column = some type)
    (hop : BinaryOperator.ofName? operator = some op) :
    Reports (context.scalarChecks collection column operator) (comparedShape type op) := by
  rw [Context.scalarChecks, htype, contains_patterns hop, comparedShape]
  cases op.isPattern with
  | true => exact .ok rfl
  | false => exact (scalarOf_reports type).map.map

theorem comparedValue_reports : (value : ComparisonValue) →
    Reports (context.valueChecks value) (comparedValue context value)
  | .scalar value => .ok rfl
  | .column target => .error rfl
  | .variable name => by
    rw [Context.valueChecks, comparedValue, Context.boundValue]
    cases Entries.get? name context.bindings with
    | none => exact .error rfl
    | some value => exact .ok rfl

theorem comparison_reports (target : ComparisonTarget) (operator : String)
    (value : ComparisonValue) :
    Reports (filterChecks context scope.collection (.binary target operator value))
      (comparison context scope target operator value) := by
  rw [filterChecks, comparison]
  refine (operatorNamed_reports operator).bind fun op hop => ?_
  refine (comparedColumn_reports target).bind fun column hcolumn => ?_
  obtain rfl := name_of_compared hcolumn
  refine (fieldType_reports scope.collection column).bind fun type htype => ?_
  refine (comparedShape_reports (Context.fieldType_eq_ok.mp htype)
    (operatorNamed_eq_ok.mp hop)).bind fun shape _ => ?_
  exact (comparedValue_reports value).map

end Steps

mutual

/-- A filter reports the first of its checks that fails. -/
theorem predicate_reports (context : Context) : (scope : Scope) → (filter : Expression) →
    Reports (filterChecks context scope.collection filter) (predicate context scope filter)
  | scope, .and parts => by
    rw [filterChecks, predicate]
    exact (predicates_reports context scope parts).map
  | scope, .or parts => by
    rw [filterChecks, predicate]
    exact (predicates_reports context scope parts).map
  | scope, .not part => by
    rw [filterChecks, predicate]
    exact (predicate_reports context scope part).map
  | scope, .unary target .isNull => by
    rw [filterChecks, predicate]
    refine (comparedColumn_reports target).bind fun column hcolumn => ?_
    obtain rfl := name_of_compared hcolumn
    exact (fieldType_reports scope.collection column).map
  | scope, .binary target operator value => by
    rw [predicate]
    exact comparison_reports target operator value
  | scope, .existsIn (.unrelated collection) filter => by
    rw [filterChecks, predicate]
    exact .error rfl
  | scope, .existsIn (.related name) filter => by
    rw [filterChecks, predicate]
    refine (relationship_reports name).bind fun relationship hrelationship => ?_
    rw [Context.relationship_eq_ok.mp hrelationship]
    refine (storage_reports relationship.target).bind fun storage _ => ?_
    exact (existsCondition_reports context (scope.existing relationship.target) filter).map

theorem existsCondition_reports (context : Context) : (scope : Scope) →
    (filter : Option Expression) →
    Reports (optionalChecks context scope.collection filter) (existsCondition context scope filter)
  | scope, none => by
    rw [optionalChecks, existsCondition]
    exact .ok rfl
  | scope, some filter => by
    rw [optionalChecks, existsCondition]
    exact (predicate_reports context scope filter).map

theorem predicates_reports (context : Context) : (scope : Scope) → (parts : List Expression) →
    Reports (partsChecks context scope.collection parts) (predicates context scope parts)
  | scope, [] => by
    rw [partsChecks, predicates]
    exact .ok rfl
  | scope, part :: parts => by
    rw [partsChecks, predicates]
    exact (predicate_reports context scope part).bind fun condition _ =>
      (predicates_reports context scope parts).map

end

/-! ## Acceptance -/

section Acceptance

variable {context : Context} {collection : String}

theorem isSome_ofName? (name : String) :
    (ScalarType.ofName? name).isSome = true ↔ ∃ scalar : ScalarType, scalar.name = name := by
  rw [Option.isSome_iff_exists]
  constructor
  · rintro ⟨scalar, hscalar⟩
    exact ⟨scalar, ScalarType.name_of_ofName? hscalar⟩
  · rintro ⟨scalar, rfl⟩
    exact ⟨scalar, ScalarType.ofName?_name scalar⟩

theorem columnWellFormed_iff {target : ComparisonTarget} {holds : FieldType → Prop} :
    ColumnWellFormed context collection target holds ↔ target.formCheck.passes = true ∧
      ∃ type, context.columnType? collection target.name = some type ∧ holds type := by
  constructor
  · rintro ⟨column, type, rfl, htype⟩
    exact ⟨rfl, type, htype⟩
  · rintro ⟨hform, type, htype⟩
    cases target with
    | rootColumn name => cases hform
    | column name path =>
      cases path with
      | nil => exact ⟨name, type, rfl, htype⟩
      | cons hop path => cases hform

theorem allPass_scalarChecks {column operator : String} {type : FieldType}
    (htype : context.columnType? collection column = some type) :
    AllPass (context.scalarChecks collection column operator) ↔
      (operator ∉ patternNames → ∃ scalar : ScalarType, scalar.name = type.underlyingName) := by
  rw [Context.scalarChecks, htype, allPass_cons, Bool.or_eq_true, List.contains_iff_mem,
    isSome_ofName?, Classical.or_iff_not_imp_left]
  exact and_iff_left allPass_nil

theorem allPass_valueChecks {value : ComparisonValue} :
    AllPass (context.valueChecks value) ↔ ValueGiven context value := by
  cases value <;> simp [Context.valueChecks, ValueGiven, Option.isSome_iff_exists]

theorem comparisonWellFormed_iff {target : ComparisonTarget} {operator : String}
    {value : ComparisonValue} :
    AllPass (filterChecks context collection (.binary target operator value)) ↔
      FilterWellFormed context collection (.binary target operator value) := by
  rw [filterChecks, FilterWellFormed, columnWellFormed_iff, allPass_append, allPass_append,
    allPass_valueChecks, operatorCheck, Context.declaredCheck]
  simp only [allPass_cons, allPass_nil, and_true, List.contains_iff_mem,
    Option.isSome_iff_exists]
  constructor
  · rintro ⟨⟨⟨hoperator, hform, type, htype⟩, hscalar⟩, hvalue⟩
    exact ⟨hoperator, ⟨hform, type, htype, (allPass_scalarChecks htype).mp hscalar⟩, hvalue⟩
  · rintro ⟨hoperator, ⟨hform, type, htype, hscalar⟩, hvalue⟩
    exact ⟨⟨⟨hoperator, hform, type, htype⟩, (allPass_scalarChecks htype).mpr hscalar⟩, hvalue⟩

end Acceptance

mutual

/-- All checks pass exactly if the filter is well formed. -/
theorem allPass_filterChecks (context : Context) : (collection : String) →
    (filter : Expression) →
    (AllPass (filterChecks context collection filter) ↔
      FilterWellFormed context collection filter)
  | collection, .and parts => by
    rw [filterChecks, FilterWellFormed]
    exact allPass_partsChecks context collection parts
  | collection, .or parts => by
    rw [filterChecks, FilterWellFormed]
    exact allPass_partsChecks context collection parts
  | collection, .not part => by
    rw [filterChecks, FilterWellFormed]
    exact allPass_filterChecks context collection part
  | collection, .unary target operator => by
    rw [filterChecks, FilterWellFormed, columnWellFormed_iff, Context.declaredCheck]
    simp [Option.isSome_iff_exists]
  | collection, .binary target operator value => comparisonWellFormed_iff
  | collection, .existsIn (.unrelated other) filter => by
    simp [filterChecks, FilterWellFormed]
  | collection, .existsIn (.related name) filter => by
    rw [filterChecks, FilterWellFormed, allPass_cons, Context.relationshipCheck]
    cases Entries.get? name context.relationships with
    | none => simp
    | some relationship =>
      have hfilter := allPass_optionalChecks context relationship.target filter
      simp [Context.storageCheck, Option.isSome_iff_exists, hfilter]

theorem allPass_optionalChecks (context : Context) : (collection : String) →
    (filter : Option Expression) →
    (AllPass (optionalChecks context collection filter) ↔
      OptionalWellFormed context collection filter)
  | collection, none => by simp [optionalChecks, OptionalWellFormed]
  | collection, some filter => by
    rw [optionalChecks, OptionalWellFormed]
    exact allPass_filterChecks context collection filter

theorem allPass_partsChecks (context : Context) : (collection : String) →
    (parts : List Expression) →
    (AllPass (partsChecks context collection parts) ↔
      PartsWellFormed context collection parts)
  | collection, [] => by simp [partsChecks, PartsWellFormed]
  | collection, part :: parts => by
    rw [partsChecks, PartsWellFormed, allPass_append]
    exact and_congr (allPass_filterChecks context collection part)
      (allPass_partsChecks context collection parts)

end

/-- A filter compiles exactly if it is well formed for the collection in scope, and the fault of any
other is that of the first check that fails. -/
theorem filters_report_first_fault (context : Context) (scope : Scope) (filter : Expression) :
    ((∃ condition, predicate context scope filter = .ok condition) ↔
        FilterWellFormed context scope.collection filter) ∧
      ∀ fault, predicate context scope filter = .error fault ↔
        firstFault? (filterChecks context scope.collection filter) = some fault := by
  have hreports := predicate_reports context scope filter
  exact ⟨hreports.ok_iff.trans (allPass_filterChecks context scope.collection filter),
    hreports.error_iff⟩

/-- An unknown operator is reported before the path of the column and the unbound variable. -/
example (context : Context) (hop : PathElement) :
    firstFault? (filterChecks context "users"
        (.binary (.column "name" [hop]) "_ilike" (.variable "pattern"))) =
      some (.unknownOperator "_ilike") := by
  rfl

end Compile

end NestedSql
