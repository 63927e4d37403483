import NestedSql.Proofs.Ordering.NewJoins
import NestedSql.Proofs.Reading.Filters
import NestedSql.Proofs.Values.Rendered

/-!
# Values in their places

The values that a query compares with are listed here from the query alone: those of a filter from
left to right, those of an order by the hops that are joined, those of a row by its fields, a
nested node giving its rows, its aggregates and its groups. Every statement of a compiled node has
exactly the parameters that these values stand for, one for each, in this order. So the value at a
placeholder is the one that the request put there, however deep its node is nested.
-/

namespace NestedSql

/-! ## Values of a query -/

mutual

/-- The values that a filter compares with, from left to right. -/
def Expression.comparedValues : Expression → List ComparisonValue
  | .and parts => partsValues parts
  | .or parts => partsValues parts
  | .not part => part.comparedValues
  | .unary _ _ => []
  | .binary _ _ value => [value]
  | .existsIn _ filter => filterValues filter

def filterValues : Option Expression → List ComparisonValue
  | none => []
  | some filter => filter.comparedValues

def partsValues : List Expression → List ComparisonValue
  | [] => []
  | part :: parts => part.comparedValues ++ partsValues parts

end

namespace Compile

open Sql (Condition Expr Join Select conditionParams)

/-- The values of an order: those of the hops that are joined, in the order of their joins. -/
def orderValues (context : Context) (scope : Scope) : Option OrderBy → List ComparisonValue
  | none => []
  | some orderBy =>
    (newlySpelled context scope (walkedPaths orderBy.elements)).flatMap fun path =>
      filterValues (lastFilter path)

/-- The values of the parts of a node, for each part that it has. -/
structure PartValues where
  rows : Option (List ComparisonValue)
  aggregates : Option (List ComparisonValue)
  groups : Option (List ComparisonValue)

/-- The values of a nested node: of its rows, of its aggregates, of its groups. -/
def PartValues.all (values : PartValues) : List ComparisonValue :=
  values.rows.getD [] ++ values.aggregates.getD [] ++ values.groups.getD []

mutual

/-- The values of a node. Aggregates without any entry read no rows and have none. -/
def nodeValues (context : Context) (collection : String) (path : AliasPath) : Query → PartValues
  | ⟨fields, aggregates, _, _, orderBy, filter, groups⟩ =>
    let source := orderValues context ⟨collection, path.tableAlias⟩ orderBy ++ filterValues filter
    { rows := (rowValues context path fields).map (· ++ source)
      aggregates := aggregates.map fun entries => if entries.isEmpty then [] else source
      groups := groups.map fun _ => filterValues filter }

def rowValues (context : Context) (path : AliasPath) :
    Option (List (String × Field)) → Option (List ComparisonValue)
  | none => none
  | some fields => some (fieldsValues context path fields)

def fieldsValues (context : Context) (path : AliasPath) :
    List (String × Field) → List ComparisonValue
  | [] => []
  | (_, field) :: fields => fieldValues context path field ++ fieldsValues context path fields

def fieldValues (context : Context) (path : AliasPath) : Field → List ComparisonValue
  | .column _ => []
  | .relationship name query =>
    match Entries.get? name context.relationships with
    | none => []
    | some relationship =>
      (nodeValues context relationship.target (path.child relationship.target) query).all

end

/-! ## Parameters that values stand for -/

/-- The parameters are those that the values stand for, one for each. -/
def Bound (context : Context) (values : List ComparisonValue) (params : List Param) : Prop :=
  values.map (namedValue? context) = params.map some

section Filters

variable {context : Context} {scope : Scope}

theorem Bound.nil : Bound context [] [] := rfl

theorem Bound.append {first second : List ComparisonValue} {before after : List Param}
    (hf : Bound context first before) (hs : Bound context second after) :
    Bound context (first ++ second) (before ++ after) := by
  rw [Bound, List.map_append, List.map_append, hf, hs]

theorem joinConditions_params (relationship : Relationship) (parent child : String) :
    conditionParams (joinConditions relationship parent child) = [] := by
  rw [conditionParams, joinConditions, List.flatMap_map]
  exact List.flatMap_eq_nil_iff.mpr fun _ _ => rfl

theorem junction_params (connective : Sql.Connective) (conditions : List Condition) :
    (junction connective conditions).render.params = conditionParams conditions := by
  cases conditions with
  | nil => rfl
  | cons condition conditions =>
    rw [junction, List.isEmpty_cons, if_neg Bool.false_ne_true, Condition.params_junction]

mutual

/-- The parameters of a compiled filter are its values. -/
theorem predicate_values (context : Context) : (scope : Scope) → (filter : Expression) →
    {condition : Condition} → predicate context scope filter = .ok condition →
      Bound context filter.comparedValues condition.render.params
  | scope, .and parts, _, h => by
    obtain ⟨conditions, hparts, rfl⟩ := predicate_and_eq_ok.mp h
    rw [Expression.comparedValues, junction_params]
    exact predicates_values context scope parts hparts
  | scope, .or parts, _, h => by
    obtain ⟨conditions, hparts, rfl⟩ := predicate_or_eq_ok.mp h
    rw [Expression.comparedValues, junction_params]
    exact predicates_values context scope parts hparts
  | scope, .not part, _, h => by
    obtain ⟨inner, hpart, rfl⟩ := predicate_not_eq_ok.mp h
    rw [Expression.comparedValues, Condition.params_not]
    exact predicate_values context scope part hpart
  | scope, .unary target .isNull, _, h => by
    obtain ⟨column, -, type, -, rfl⟩ := predicate_isNull_eq_ok.mp h
    rw [Expression.comparedValues]
    exact .nil
  | scope, .binary target operator value, _, h => by
    rw [predicate_binary_eq] at h
    obtain ⟨op, -, column, -, type, -, shape, -, param, hparam, rfl⟩ := comparison_eq_ok.mp h
    rw [Expression.comparedValues, Condition.params_compare, Bound, List.map_singleton,
      List.map_singleton, namedValue_of_compared hparam]
  | scope, .existsIn (.unrelated collection) filter, _, h => absurd h predicate_unrelated_ne_ok
  | scope, .existsIn (.related name) filter, _, h => by
    obtain ⟨relationship, -, storage, -, inner, hinner, rfl⟩ := predicate_related_eq_ok.mp h
    have hmapping := joinConditions_params relationship scope.tableAlias
      (scope.existing relationship.target).tableAlias
    rw [Expression.comparedValues, Condition.params_existsIn, conditionParams, List.flatMap_cons,
      ← conditionParams, hmapping, List.append_nil]
    exact existsCondition_values context _ filter hinner

theorem existsCondition_values (context : Context) : (scope : Scope) →
    (filter : Option Expression) → {condition : Condition} →
    existsCondition context scope filter = .ok condition →
      Bound context (filterValues filter) condition.render.params
  | scope, none, _, h => by
    obtain rfl := existsCondition_none_eq_ok.mp h
    rw [filterValues]
    exact .nil
  | scope, some filter, _, h => by
    obtain ⟨inner, hfilter, rfl⟩ := existsCondition_some_eq_ok.mp h
    rw [filterValues, Condition.params_group]
    exact predicate_values context scope filter hfilter

theorem predicates_values (context : Context) : (scope : Scope) → (parts : List Expression) →
    {conditions : List Condition} → predicates context scope parts = .ok conditions →
      Bound context (partsValues parts) (conditionParams conditions)
  | scope, [], _, h => by
    obtain rfl := predicates_nil_eq_ok.mp h
    rw [partsValues]
    exact .nil
  | scope, part :: parts, _, h => by
    obtain ⟨first, hpart, others, hparts, rfl⟩ := predicates_cons_eq_ok.mp h
    rw [partsValues, conditionParams, List.flatMap_cons]
    exact (predicate_values context scope part hpart).append
      (predicates_values context scope parts hparts)

end

/-- The conditions of a node have the values of its filter. -/
theorem nodeConditions_values {parent : Option Parent} {filter : Option Expression}
    {conditions : List Condition}
    (h : nodeConditions context scope parent filter = .ok conditions) :
    Bound context (filterValues filter) (conditionParams conditions) := by
  have hparent : conditionParams (parentConditions scope parent) = [] := by
    cases parent with
    | none => rfl
    | some parent => exact joinConditions_params _ _ _
  cases filter with
  | none =>
    rw [nodeConditions_none] at h
    obtain rfl := Except.ok.inj h
    rw [hparent, filterValues]
    exact .nil
  | some filter =>
    rw [nodeConditions_some] at h
    obtain ⟨condition, hfilter, h⟩ := bind_eq_ok.mp h
    obtain rfl := pure_eq_ok.mp h
    rw [conditionParams, List.flatMap_append, ← conditionParams, hparent, List.nil_append,
      List.flatMap_singleton, Condition.params_group, filterValues]
    exact predicate_values context scope filter hfilter

/-! ## Orders -/

theorem orOne_params (conditions : List Condition) :
    conditionParams (orOne conditions) = conditionParams conditions := by
  cases conditions <;> rfl

/-- The join that a path asks for has the values of the filter on its last hop. -/
theorem ownJoin_values {path : List PathElement} {join : Join}
    (h : ownJoin context scope path = some join) :
    Bound context (filterValues (lastFilter path)) (conditionParams join.conditions) := by
  obtain ⟨source, target, relationship, filters, hfilters, hconditions⟩ := ownJoin_conditions h
  have hmapping := joinConditions_params relationship source target.tableAlias
  rw [hconditions, orOne_params, conditionParams, List.flatMap_append, ← conditionParams,
    hmapping, List.nil_append]
  cases hlast : lastFilter path with
  | none =>
    rw [hlast] at hfilters
    obtain rfl := Option.some.inj hfilters
    rw [filterValues]
    exact .nil
  | some filter =>
    rw [hlast] at hfilters
    obtain ⟨part, hpart, rfl⟩ := filterConditions_some_eq_some.mp hfilters
    rw [filterValues, List.flatMap_singleton, Condition.params_group]
    exact predicate_values context target filter hpart

theorem joins_values {paths : List (List PathElement)} {joins : List Join}
    (h : List.Forall₂ (fun path join => ownJoin context scope path = some join) paths joins) :
    Bound context (paths.flatMap fun path => filterValues (lastFilter path))
      (joins.flatMap fun join => conditionParams join.conditions) := by
  induction h with
  | nil => exact .nil
  | cons hown _ ih =>
    rw [List.flatMap_cons, List.flatMap_cons]
    exact (ownJoin_values hown).append ih

/-- The joins of an order have the values of the hops that are joined. -/
theorem ordering_values {orderBy : Option OrderBy} {result : Ordering}
    (h : ordering context scope orderBy = .ok result) :
    Bound context (orderValues context scope orderBy)
      (result.joins.flatMap fun join => conditionParams join.conditions) := by
  cases orderBy with
  | none =>
    obtain rfl := pure_eq_ok.mp h
    exact .nil
  | some orderBy => exact joins_values (ordering_lists h).1.own

end Filters

/-! ## Nodes -/

/-- The parts have the parameters that the values of these parts stand for. -/
structure Carries (context : Context) (values : PartValues)
    (rows aggregates groups : Option (List Param)) : Prop where
  rows : Option.Rel (Bound context) values.rows rows
  aggregates : Option.Rel (Bound context) values.aggregates aggregates
  groups : Option.Rel (Bound context) values.groups groups

/-- The selects of a node have the parameters that the values stand for. -/
def Node.Carries (node : Node) (context : Context) (values : PartValues) : Prop :=
  Compile.Carries context values (partParams node.rows) (partParams node.aggregates)
    (partParams node.groups)

section Parts

variable {context : Context} {scope : Scope}

theorem Bound.getD {values : Option (List ComparisonValue)} {params : Option (List Param)}
    (h : Option.Rel (Bound context) values params) :
    Bound context (values.getD []) (params.getD []) := by
  cases h with
  | none => exact .nil
  | some h => exact h

theorem Node.Carries.all {node : Node} {values : PartValues} (h : node.Carries context values) :
    Bound context values.all (childExpr node).render.params := by
  rw [childExpr_params, PartValues.all]
  exact ((Bound.getD h.rows).append (Bound.getD h.aggregates)).append (Bound.getD h.groups)

theorem summaries_isEmpty {entries : Entries Aggregate} {tableAlias : String}
    {outputs : List (String × Sql.Summary)} (h : summaries entries tableAlias = .ok outputs) :
    outputs.isEmpty = entries.isEmpty := by
  cases entries with
  | nil =>
    obtain rfl := pure_eq_ok.mp h
    rfl
  | cons entry entries =>
    obtain ⟨value, -, others, -, rfl⟩ := summaries_cons_eq_ok.mp h
    rfl

theorem dimensions_params {dimensions : List Dimension} {values : List Expr}
    (h : dimensions.mapM (dimension context scope) = .ok values) :
    ∀ value ∈ values, value.render.params = [] := by
  induction dimensions generalizing values with
  | nil =>
    obtain rfl := pure_eq_ok.mp h
    exact nofun
  | cons entry dimensions ih =>
    obtain ⟨value, hvalue, others, hothers, rfl⟩ := mapM_cons_eq_ok.mp h
    obtain ⟨name, -, type, -, strategy, -, rfl⟩ := dimension_eq_ok.mp hvalue
    rintro other (_ | ⟨_, hother⟩)
    · rfl
    · exact ih hothers other hother

theorem rowsPart_values {rows : Rows} {source : List ComparisonValue}
    (hrows : Bound context source rows.params) {row : Option Expr}
    {values : Option (List ComparisonValue)}
    (hrow : Option.Rel (Bound context) values (row.map fun row => row.render.params)) :
    Option.Rel (Bound context) (values.map (· ++ source)) (partParams (row.map (rowsSelect rows))) := by
  cases row with
  | none =>
    cases hrow
    exact .none
  | some row =>
    cases hrow with
    | some hrow =>
      simp only [partParams, Option.map_some, rowsSelect_params]
      exact .some (hrow.append hrows)

theorem aggregatesPart_values {rows : Rows} {source : List ComparisonValue}
    (hrows : Bound context source rows.params) {aggregates : Option (Entries Aggregate)}
    {part : Option Select} (h : aggregatesPart rows aggregates = .ok part) :
    Option.Rel (Bound context)
      (aggregates.map fun entries => if entries.isEmpty then [] else source) (partParams part) := by
  obtain ⟨rfl, rfl⟩ | ⟨entries, outputs, rfl, houtputs, rfl⟩ := aggregatesPart_eq_ok.mp h
  · exact .none
  · simp only [partParams, Option.map_some, aggregatesSelect_params, summaries_isEmpty houtputs]
    refine .some ?_
    split
    · exact .nil
    · exact hrows

theorem groupsPart_values {groups? : Option Grouping} {table : Sql.Table}
    {conditions : List Condition} {part : Option Select}
    (h : groups?.mapM (groups context scope table conditions) = .ok part)
    {filtered : List ComparisonValue} (hfiltered : Bound context filtered (conditionParams conditions)) :
    Option.Rel (Bound context) (groups?.map fun _ => filtered) (partParams part) := by
  obtain ⟨rfl, rfl⟩ | ⟨grouping, dimensions, outputs, rfl, hdimensions, -, rfl⟩ :=
    groupsPart_eq_ok.mp h
  · exact .none
  · simp only [partParams, Option.map_some,
      groupsSelect_params _ _ _ _ (dimensions_params hdimensions)]
    exact .some hfiltered

end Parts

mutual

/-- The parameters of a compiled node are the values of its query. -/
theorem node_values (context : Context) : (collection : String) → (path : AliasPath) →
    (parent : Option Parent) → (query : Query) → {result : Node} →
    node context collection path parent query = .ok result →
      result.Carries context (nodeValues context collection path query)
  | collection, path, parent, ⟨fields, aggregates, limit, offset, orderBy, filter, groups?⟩, _,
      h => by
    obtain ⟨-, storage, -, conditions, hconditions, order, horder, row, hrow, aggregated,
      haggregates, grouped, hgroups, rfl⟩ := node_eq_ok.mp h
    have hfiltered := nodeConditions_values hconditions
    have hsource := (ordering_values horder).append hfiltered
    have hvalues := rowObject_values context ⟨collection, path.tableAlias⟩ path fields hrow
    rw [nodeValues]
    exact ⟨rowsPart_values hsource hvalues, aggregatesPart_values hsource haggregates,
      groupsPart_values hgroups hfiltered⟩

theorem rowObject_values (context : Context) : (scope : Scope) → (path : AliasPath) →
    (fields : Option (List (String × Field))) → {row : Option Expr} →
    rowObject context scope path fields = .ok row →
      Option.Rel (Bound context) (rowValues context path fields)
        (row.map fun row => row.render.params)
  | scope, path, none, _, h => by
    obtain rfl := rowObject_none_eq_ok.mp h
    rw [rowValues]
    exact .none
  | scope, path, some fields, _, h => by
    obtain ⟨members, hmembers, rfl⟩ := rowObject_some_eq_ok.mp h
    rw [rowValues, Option.map_some, Expr.params_object]
    exact .some (fieldMembers_values context scope path fields hmembers)

theorem fieldMembers_values (context : Context) : (scope : Scope) → (path : AliasPath) →
    (fields : List (String × Field)) → {members : List (String × Expr)} →
    fieldMembers context scope path fields = .ok members →
      Bound context (fieldsValues context path fields)
        (members.flatMap fun member => member.2.render.params)
  | scope, path, [], _, h => by
    obtain rfl := fieldMembers_nil_eq_ok.mp h
    rw [fieldsValues]
    exact .nil
  | scope, path, (name, field) :: fields, _, h => by
    obtain ⟨value, hvalue, others, hothers, rfl⟩ := fieldMembers_cons_eq_ok.mp h
    rw [fieldsValues, List.flatMap_cons]
    exact (fieldExpr_values context scope path field hvalue).append
      (fieldMembers_values context scope path fields hothers)

theorem fieldExpr_values (context : Context) : (scope : Scope) → (path : AliasPath) →
    (field : Field) → {value : Expr} → fieldExpr context scope path field = .ok value →
      Bound context (fieldValues context path field) value.render.params
  | scope, path, .column name, _, h => by
    obtain ⟨type, -, strategy, -, rfl⟩ := fieldExpr_column_eq_ok.mp h
    rw [fieldValues]
    exact .nil
  | scope, path, .relationship name query, _, h => by
    obtain ⟨relationship, hrelationship, child, hchild, rfl⟩ := fieldExpr_relationship_eq_ok.mp h
    rw [fieldValues, hrelationship]
    exact (node_values context relationship.target _ _ query hchild).all

end

/-! ## Requests -/

/-- The values of the root query of a request. -/
def requestValues (schema : Schema) (request : Request) (bindings : VariableSet) : PartValues :=
  nodeValues ⟨schema, request.relationships, bindings⟩ request.collection
    (AliasPath.root.child request.collection) request.query

theorem ofNode_carries {context : Context} {values : PartValues} {result : Node}
    (h : result.Carries context values) :
    Carries context values ((Plan.ofNode result).rows.map Statement.params)
      ((Plan.ofNode result).aggregates.map Statement.params)
      ((Plan.ofNode result).groups.map Statement.params) := by
  have hpart : ∀ part : Option Select,
      (part.map Select.renderRoot).map Statement.params = partParams part := by
    intro part
    rw [Option.map_map, partParams]
    exact congrArg (part.map ·) (funext Select.params_renderRoot)
  rw [Plan.ofNode, hpart, hpart, hpart]
  exact h

/-- Every parameter is the value that the request has at its place: in the statements of the
request, in the selects of every node at any depth, and in every filter. -/
theorem parameters_are_request_values {schema : Schema} {request : Request}
    {bindings : VariableSet} {plan : Plan} (h : request.compile schema bindings = .ok plan) :
    Carries ⟨schema, request.relationships, bindings⟩ (requestValues schema request bindings)
        (plan.rows.map Statement.params) (plan.aggregates.map Statement.params)
        (plan.groups.map Statement.params) ∧
      (∀ collection path parent query result,
        node ⟨schema, request.relationships, bindings⟩ collection path parent query = .ok result →
          result.Carries ⟨schema, request.relationships, bindings⟩
            (nodeValues ⟨schema, request.relationships, bindings⟩ collection path query)) ∧
      ∀ scope filter condition,
        predicate ⟨schema, request.relationships, bindings⟩ scope filter = .ok condition →
          Bound ⟨schema, request.relationships, bindings⟩ filter.comparedValues
            condition.render.params := by
  obtain ⟨result, hnode, rfl⟩ := compile_eq_ok.mp h
  refine ⟨ofNode_carries (node_values _ _ _ _ _ hnode), ?_, ?_⟩
  · intro collection path parent query result hnested
    exact node_values _ collection path parent query hnested
  · intro scope filter condition hfilter
    exact predicate_values _ scope filter hfilter

/-- Orders with a seller bound by a variable, sorted by two hops to their buyers, each buyer with
the count of its own orders. -/
def boughtRequest : Request where
  collection := "orders"
  query := ⟨some [("id", .column "id"), ("buyer", .relationship "buyer"
      ⟨some [("name", .column "name")], some [("count", .starCount)], none, none, none,
        some (.binary (.column "name" []) "_like" (.scalar (.string "a%"))), none⟩)],
    some [("count", .starCount)], none, none,
    some ⟨[⟨.asc, .column "name" [⟨"buyer", some
        (.binary (.column "name" []) "_gt" (.scalar (.string "b")))⟩]⟩,
      ⟨.desc, .column "id" [⟨"buyer", none⟩]⟩]⟩,
    some (.and [.existsIn (.related "seller") (some
        (.binary (.column "id" []) "_eq" (.variable "seller"))),
      .not (.binary (.column "id" []) "_eq" (.scalar (.number (.ofUInt32 7))))]),
    some ⟨[.column "buyer_id" []], [("last", .singleColumn "id" "_max")], none, none, none, none⟩⟩
  relationships := tradeContext.relationships
  bindings := none

theorem boughtRequest_parameters_are_values :
    ∃ plan, boughtRequest.compile tradeContext.schema [("seller", .number (.ofUInt32 3))] = .ok plan ∧
      Carries ⟨tradeContext.schema, boughtRequest.relationships, [("seller", .number (.ofUInt32 3))]⟩
        { rows := some [.scalar (.string "a%"), .scalar (.string "a%"), .scalar (.string "b"),
            .variable "seller", .scalar (.number (.ofUInt32 7))]
          aggregates := some [.scalar (.string "b"), .variable "seller", .scalar (.number (.ofUInt32 7))]
          groups := some [.variable "seller", .scalar (.number (.ofUInt32 7))] }
        (plan.rows.map Statement.params) (plan.aggregates.map Statement.params)
        (plan.groups.map Statement.params) := by
  have hcompiled : boughtRequest.compile tradeContext.schema [("seller", .number (.ofUInt32 3))] = .ok _ :=
    rfl
  exact ⟨_, hcompiled, (parameters_are_request_values hcompiled).1⟩

end Compile

end NestedSql
