import NestedSql.Proofs.Ordering.NewJoins

/-!
# Features that are not supported

Every position of a query can ask for something that is not supported; such a feature is named here
by the fault that speaks of it. A request that compiles has none of them, except on hops of an
order whose alias an earlier path of the same order has spelled: these are passed over unread. The
unsupported features of a request that compiles are exactly those on such hops, at every depth of
nesting, and none are left where the paths of every order are spelled apart.
-/

namespace NestedSql

/-! ## Unsupported features -/

def ComparisonTarget.unsupported : ComparisonTarget → List CompileError
  | .column _ [] => []
  | .column name (_ :: _) => [.columnThroughPath name]
  | .rootColumn name => [.rootColumn name]

def ComparisonValue.unsupported : ComparisonValue → List CompileError
  | .scalar _ | .variable _ => []
  | .column _ => [.comparisonWithColumn]

def ExistsSource.unsupported : ExistsSource → List CompileError
  | .related _ => []
  | .unrelated collection => [.unrelatedExists collection]

/-- An operator that is not in the table. -/
def unsupportedOperator (name : String) : List CompileError :=
  if (BinaryOperator.ofName? name).isSome then [] else [.unknownOperator name]

mutual

/-- The unsupported features of a filter, from left to right. -/
def Expression.unsupported : Expression → List CompileError
  | .and parts => unsupportedParts parts
  | .or parts => unsupportedParts parts
  | .not part => part.unsupported
  | .unary target _ => target.unsupported
  | .binary target operator value =>
    unsupportedOperator operator ++ target.unsupported ++ value.unsupported
  | .existsIn source filter => source.unsupported ++ unsupportedFilter filter

def unsupportedFilter : Option Expression → List CompileError
  | none => []
  | some filter => filter.unsupported

def unsupportedParts : List Expression → List CompileError
  | [] => []
  | part :: parts => part.unsupported ++ unsupportedParts parts

end

/-- An aggregate is no target of an order; a path has a filter on every hop. -/
def OrderByTarget.unsupported : OrderByTarget → List CompileError
  | .column _ path => path.flatMap fun hop => unsupportedFilter hop.predicate
  | .singleColumnAggregate _ _ _ | .starCountAggregate _ => [.orderByAggregate]

def unsupportedOrder : Option OrderBy → List CompileError
  | none => []
  | some orderBy => orderBy.elements.flatMap fun element => element.target.unsupported

/-- A function that is not in the table. -/
def Aggregate.unsupported : Aggregate → List CompileError
  | .starCount | .columnCount _ _ => []
  | .singleColumn _ name =>
    if (AggregateFunction.ofName? name).isSome then [] else [.unknownFunction name]

def unsupportedAggregates (aggregates : Entries Aggregate) : List CompileError :=
  aggregates.flatMap fun entry => entry.2.unsupported

def Dimension.unsupported : Dimension → List CompileError
  | .column _ [] => []
  | .column name (_ :: _) => [.dimensionThroughPath name]

def Grouping.unsupported (grouping : Grouping) : List CompileError :=
  (if grouping.predicate.isSome then [.groupPredicate] else []) ++
    (if grouping.orderBy.isSome then [.groupOrder] else []) ++
    grouping.dimensions.flatMap Dimension.unsupported ++ unsupportedAggregates grouping.aggregates

/-- A node that asks for none of fields, aggregates and groups. -/
def unsupportedNode (hasFields hasAggregates hasGroups : Bool) : List CompileError :=
  if hasFields || hasAggregates || hasGroups then [] else [.nothingRequested]

mutual

/-- The unsupported features of a query and of all queries nested in it. -/
def Query.unsupported : Query → List CompileError
  | ⟨fields, aggregates, _, _, orderBy, filter, groups⟩ =>
    unsupportedNode fields.isSome aggregates.isSome groups.isSome ++ unsupportedFilter filter ++
      aggregates.toList.flatMap unsupportedAggregates ++
      groups.toList.flatMap Grouping.unsupported ++ unsupportedOrder orderBy ++
      unsupportedRow fields

def unsupportedRow : Option (List (String × Field)) → List CompileError
  | none => []
  | some fields => unsupportedFields fields

def unsupportedFields : List (String × Field) → List CompileError
  | [] => []
  | (_, field) :: fields => field.unsupported ++ unsupportedFields fields

def Field.unsupported : Field → List CompileError
  | .column _ => []
  | .relationship _ query => query.unsupported

end

namespace Compile

/-! ## Orders of a query -/

mutual

/-- The orders of a query and of all queries nested in it, each with the scope that it sorts. -/
def orders (context : Context) (collection : String) (path : AliasPath) :
    Query → List (Scope × List OrderByElement)
  | ⟨fields, _, _, _, orderBy, _, _⟩ =>
    (orderBy.toList.map fun order => (⟨collection, path.tableAlias⟩, order.elements)) ++
      rowOrders context path fields

def rowOrders (context : Context) (path : AliasPath) :
    Option (List (String × Field)) → List (Scope × List OrderByElement)
  | none => []
  | some fields => fieldsOrders context path fields

def fieldsOrders (context : Context) (path : AliasPath) :
    List (String × Field) → List (Scope × List OrderByElement)
  | [] => []
  | (_, field) :: fields => fieldOrders context path field ++ fieldsOrders context path fields

def fieldOrders (context : Context) (path : AliasPath) :
    Field → List (Scope × List OrderByElement)
  | .column _ => []
  | .relationship name query =>
    match Entries.get? name context.relationships with
    | none => []
    | some relationship =>
      orders context relationship.target (path.child relationship.target) query

end

/-- The unsupported features on hops whose alias an earlier path of the order has spelled. -/
def passedOver (context : Context) (order : Scope × List OrderByElement) : List CompileError :=
  (respelled context order.1 (walkedPaths order.2)).flatMap fun path =>
    unsupportedFilter (lastFilter path)

section Parts

variable {context : Context} {scope : Scope}

/-! ## Filters -/

theorem supported_of_named {target : ComparisonTarget} {column : String}
    (h : namedColumn? target = some column) : target.unsupported = [] := by
  cases target with
  | rootColumn name => cases h
  | column name path =>
    cases path with
    | nil => rfl
    | cons hop path => cases h

theorem supported_of_compared {param : Param} :
    {value : ComparisonValue} → comparedValue context value = .ok param → value.unsupported = []
  | .scalar _, _ => rfl
  | .variable _, _ => rfl
  | .column _, h => absurd h throw_ne_ok

theorem comparison_supported {target : ComparisonTarget} {operator : String}
    {value : ComparisonValue} {condition : Sql.Condition}
    (h : comparison context scope target operator value = .ok condition) :
    (Expression.binary target operator value).unsupported = [] := by
  obtain ⟨op, hop, column, hcolumn, type, -, shape, -, param, hparam, -⟩ := comparison_eq_ok.mp h
  have hoperator : unsupportedOperator operator = [] := by
    rw [unsupportedOperator, hop]
    rfl
  rw [Expression.unsupported, hoperator, supported_of_named hcolumn, supported_of_compared hparam]
  rfl

mutual

/-- A filter that compiles has no unsupported feature. -/
theorem predicate_supported (context : Context) : (scope : Scope) → (filter : Expression) →
    {condition : Sql.Condition} → predicate context scope filter = .ok condition →
      filter.unsupported = []
  | scope, .and parts, _, h => by
    obtain ⟨conditions, hparts, -⟩ := predicate_and_eq_ok.mp h
    rw [Expression.unsupported]
    exact predicates_supported context scope parts hparts
  | scope, .or parts, _, h => by
    obtain ⟨conditions, hparts, -⟩ := predicate_or_eq_ok.mp h
    rw [Expression.unsupported]
    exact predicates_supported context scope parts hparts
  | scope, .not part, _, h => by
    obtain ⟨inner, hpart, -⟩ := predicate_not_eq_ok.mp h
    rw [Expression.unsupported]
    exact predicate_supported context scope part hpart
  | scope, .unary target .isNull, _, h => by
    obtain ⟨column, hcolumn, -⟩ := predicate_isNull_eq_ok.mp h
    rw [Expression.unsupported]
    exact supported_of_named hcolumn
  | scope, .binary target operator value, _, h => by
    rw [predicate_binary_eq] at h
    exact comparison_supported h
  | scope, .existsIn (.unrelated collection) filter, _, h => absurd h predicate_unrelated_ne_ok
  | scope, .existsIn (.related name) filter, _, h => by
    obtain ⟨relationship, -, storage, -, inner, hinner, -⟩ := predicate_related_eq_ok.mp h
    rw [Expression.unsupported, existsCondition_supported context _ filter hinner]
    rfl

theorem existsCondition_supported (context : Context) : (scope : Scope) →
    (filter : Option Expression) → {condition : Sql.Condition} →
    existsCondition context scope filter = .ok condition → unsupportedFilter filter = []
  | scope, none, _, _ => by rw [unsupportedFilter]
  | scope, some filter, _, h => by
    obtain ⟨inner, hfilter, -⟩ := existsCondition_some_eq_ok.mp h
    rw [unsupportedFilter]
    exact predicate_supported context scope filter hfilter

theorem predicates_supported (context : Context) : (scope : Scope) → (parts : List Expression) →
    {conditions : List Sql.Condition} → predicates context scope parts = .ok conditions →
      unsupportedParts parts = []
  | scope, [], _, _ => by rw [unsupportedParts]
  | scope, part :: parts, _, h => by
    obtain ⟨first, hpart, others, hparts, -⟩ := predicates_cons_eq_ok.mp h
    rw [unsupportedParts, predicate_supported context scope part hpart,
      predicates_supported context scope parts hparts]
    rfl

end

theorem nodeConditions_supported {parent : Option Parent} {filter : Option Expression}
    {conditions : List Sql.Condition}
    (h : nodeConditions context scope parent filter = .ok conditions) :
    unsupportedFilter filter = [] := by
  cases filter with
  | none => rw [unsupportedFilter]
  | some filter =>
    rw [nodeConditions_some] at h
    obtain ⟨condition, hfilter, -⟩ := bind_eq_ok.mp h
    rw [unsupportedFilter]
    exact predicate_supported context scope filter hfilter

/-! ## Orders -/

/-- The filter behind a join is supported. -/
theorem ownJoin_supported {path : List PathElement} {join : Sql.Join}
    (h : ownJoin context scope path = some join) : unsupportedFilter (lastFilter path) = [] := by
  obtain ⟨source, target, relationship, filters, hfilters, -⟩ := ownJoin_conditions h
  cases hlast : lastFilter path with
  | none => rw [unsupportedFilter]
  | some filter =>
    rw [hlast] at hfilters
    obtain ⟨part, hpart, -⟩ := filterConditions_some_eq_some.mp hfilters
    rw [unsupportedFilter]
    exact predicate_supported context target filter hpart

/-- An order has no unsupported features but those that are passed over. -/
theorem ordering_supported {orderBy : OrderBy} {result : Ordering}
    (h : ordering context scope (some orderBy) = .ok result) :
    unsupportedOrder (some orderBy) = passedOver context (scope, orderBy.elements) := by
  obtain ⟨hlists, htargets⟩ := ordering_lists h
  have hnew : ∀ path ∈ newlySpelled context scope (walkedPaths orderBy.elements),
      unsupportedFilter (lastFilter path) = [] := by
    intro path hpath
    obtain ⟨i, hi, rfl⟩ := List.getElem_of_mem hpath
    exact ownJoin_supported (hlists.own.get hi (hlists.own.length_eq ▸ hi))
  have hwalked : unsupportedOrder (some orderBy) =
      (walkedPaths orderBy.elements).flatMap fun path => unsupportedFilter (lastFilter path) := by
    rw [unsupportedOrder, walkedPaths, List.flatMap_assoc]
    apply List.flatMap_congr
    intro element helement
    obtain ⟨name, path, htarget⟩ := htargets element helement
    rw [htarget, targetPath, flatMap_lastFilter_beginnings]
    rfl
  rw [hwalked, passedOver, respelled, flatMap_sift hnew]
  simp only [Bool.not_not]

/-- Where the paths of an order are spelled apart, nothing is passed over. -/
theorem passedOver_of_unambiguous {elements : List OrderByElement} {joins : List Sql.Join}
    (h : Lists context scope (walkedPaths elements) joins)
    (hclear : Unambiguous context scope elements) : passedOver context (scope, elements) = [] := by
  rw [passedOver, List.flatMap_eq_nil_iff]
  intro path hpath
  obtain ⟨earlier, hspelled⟩ := keep_of_mem_sift hpath
  obtain ⟨other, hother⟩ := Option.isSome_iff_exists.mp hspelled
  obtain ⟨tableAlias, halias, -⟩ := Option.bind_eq_some_iff.mp hother
  obtain ⟨first, hfirst⟩ := firstSpelled_of_mem (mem_of_mem_sift hpath) halias
  obtain ⟨hmem, hsame⟩ := firstSpelled_spec hfirst
  obtain ⟨join, hown, -⟩ := h.bound hfirst
  rw [hclear path (mem_of_mem_sift hpath) first hmem tableAlias halias hsame]
  exact ownJoin_supported hown

/-! ## Aggregates and groups -/

theorem summary_supported {tableAlias : String} {aggregate : Aggregate} {value : Sql.Summary}
    (h : summary tableAlias aggregate = .ok value) : aggregate.unsupported = [] := by
  cases aggregate with
  | starCount => rfl
  | columnCount column distinct => rfl
  | singleColumn column name =>
    obtain ⟨function, hfunction, -⟩ := summary_function_eq_ok.mp h
    rw [Aggregate.unsupported, hfunction]
    rfl

theorem summaries_supported {entries : Entries Aggregate} {tableAlias : String}
    {outputs : List (String × Sql.Summary)} (h : summaries entries tableAlias = .ok outputs) :
    unsupportedAggregates entries = [] := by
  induction entries generalizing outputs with
  | nil => rfl
  | cons entry entries ih =>
    obtain ⟨value, hvalue, others, hothers, -⟩ := summaries_cons_eq_ok.mp h
    have hrest := ih hothers
    rw [unsupportedAggregates] at hrest ⊢
    rw [List.flatMap_cons, summary_supported hvalue, hrest]
    rfl

theorem dimensions_supported {dimensions : List Dimension} {values : List Sql.Expr}
    (h : dimensions.mapM (dimension context scope) = .ok values) :
    dimensions.flatMap Dimension.unsupported = [] := by
  induction dimensions generalizing values with
  | nil => rfl
  | cons entry dimensions ih =>
    obtain ⟨value, hvalue, others, hothers, -⟩ := mapM_cons_eq_ok.mp h
    obtain ⟨name, rfl, -⟩ := dimension_eq_ok.mp hvalue
    rw [List.flatMap_cons, ih hothers]
    rfl

theorem aggregatesPart_supported {rows : Rows} {aggregates : Option (Entries Aggregate)}
    {part : Option Sql.Select} (h : aggregatesPart rows aggregates = .ok part) :
    aggregates.toList.flatMap unsupportedAggregates = [] := by
  obtain ⟨rfl, -⟩ | ⟨entries, outputs, rfl, houtputs, -⟩ := aggregatesPart_eq_ok.mp h
  · rfl
  · rw [Option.toList_some, List.flatMap_singleton, summaries_supported houtputs]

theorem groupsPart_supported {groups? : Option Grouping} {table : Sql.Table}
    {conditions : List Sql.Condition} {part : Option Sql.Select}
    (h : groups?.mapM (groups context scope table conditions) = .ok part)
    (hplain : ∀ grouping, groups? = some grouping →
      grouping.predicate = none ∧ grouping.orderBy = none) :
    groups?.toList.flatMap Grouping.unsupported = [] := by
  obtain ⟨rfl, -⟩ | ⟨grouping, dimensions, outputs, rfl, hdimensions, houtputs, -⟩ :=
    groupsPart_eq_ok.mp h
  · rfl
  · obtain ⟨hpredicate, horder⟩ := hplain grouping rfl
    rw [Option.toList_some, List.flatMap_singleton, Grouping.unsupported, hpredicate, horder,
      dimensions_supported hdimensions, summaries_supported houtputs]
    rfl

end Parts

/-! ## Nodes -/

/-- What a compiled query leaves of some unsupported features, and that its orders have joins. -/
structure Accounts (context : Context) (orders : List (Scope × List OrderByElement))
    (features : List CompileError) : Prop where
  features : features = orders.flatMap (passedOver context)
  listed : ∀ order ∈ orders, ∃ joins, Lists context order.1 (walkedPaths order.2) joins

section Accounts

variable {context : Context} {first second : List (Scope × List OrderByElement)}
  {before after : List CompileError}

theorem Accounts.none : Accounts context [] [] := ⟨rfl, nofun⟩

theorem Accounts.append (hf : Accounts context first before) (hs : Accounts context second after) :
    Accounts context (first ++ second) (before ++ after) := by
  constructor
  · rw [List.flatMap_append, hf.features, hs.features]
  · intro order horder
    rcases List.mem_append.mp horder with horder | horder
    · exact hf.listed order horder
    · exact hs.listed order horder

theorem ordering_accounts {scope : Scope} {orderBy : Option OrderBy} {result : Ordering}
    (h : ordering context scope orderBy = .ok result) :
    Accounts context (orderBy.toList.map fun order => (scope, order.elements))
      (unsupportedOrder orderBy) := by
  cases orderBy with
  | none => exact .none
  | some orderBy =>
    constructor
    · rw [ordering_supported h, Option.toList_some, List.map_singleton, List.flatMap_singleton]
    · intro order horder
      rw [Option.toList_some, List.map_singleton, List.mem_singleton] at horder
      rw [horder]
      exact ⟨result.joins, (ordering_lists h).1⟩

end Accounts

mutual

/-- The unsupported features of a query that compiles are those passed over in its orders. -/
theorem node_accounts (context : Context) : (collection : String) → (path : AliasPath) →
    (parent : Option Parent) → (query : Query) → {result : Node} →
    node context collection path parent query = .ok result →
      Accounts context (orders context collection path query) query.unsupported
  | collection, path, parent, ⟨fields, aggregates, limit, offset, orderBy, filter, groups?⟩, _,
      h => by
    obtain ⟨hrequested, storage, -, conditions, hconditions, order, horder, row, hrow, aggregated,
      haggregates, grouped, hgroups, -⟩ := node_eq_ok.mp h
    obtain ⟨hplain, hasked⟩ := checkRequested_eq_ok.mp hrequested
    have hnode : unsupportedNode fields.isSome aggregates.isSome groups?.isSome = [] := if_pos hasked
    rw [orders, Query.unsupported, hnode, nodeConditions_supported hconditions,
      aggregatesPart_supported haggregates, groupsPart_supported hgroups hplain]
    exact (ordering_accounts horder).append
      (rowObject_accounts context ⟨collection, path.tableAlias⟩ path fields hrow)

theorem rowObject_accounts (context : Context) : (scope : Scope) → (path : AliasPath) →
    (fields : Option (List (String × Field))) → {row : Option Sql.Expr} →
    rowObject context scope path fields = .ok row →
      Accounts context (rowOrders context path fields) (unsupportedRow fields)
  | scope, path, none, _, _ => by
    rw [rowOrders, unsupportedRow]
    exact .none
  | scope, path, some fields, _, h => by
    obtain ⟨members, hmembers, -⟩ := rowObject_some_eq_ok.mp h
    rw [rowOrders, unsupportedRow]
    exact fieldMembers_accounts context scope path fields hmembers

theorem fieldMembers_accounts (context : Context) : (scope : Scope) → (path : AliasPath) →
    (fields : List (String × Field)) → {members : List (String × Sql.Expr)} →
    fieldMembers context scope path fields = .ok members →
      Accounts context (fieldsOrders context path fields) (unsupportedFields fields)
  | scope, path, [], _, _ => by
    rw [fieldsOrders, unsupportedFields]
    exact .none
  | scope, path, (name, field) :: fields, _, h => by
    obtain ⟨value, hvalue, others, hothers, -⟩ := fieldMembers_cons_eq_ok.mp h
    rw [fieldsOrders, unsupportedFields]
    exact (fieldExpr_accounts context scope path field hvalue).append
      (fieldMembers_accounts context scope path fields hothers)

theorem fieldExpr_accounts (context : Context) : (scope : Scope) → (path : AliasPath) →
    (field : Field) → {value : Sql.Expr} → fieldExpr context scope path field = .ok value →
      Accounts context (fieldOrders context path field) field.unsupported
  | scope, path, .column name, _, _ => by
    rw [fieldOrders, Field.unsupported]
    exact .none
  | scope, path, .relationship name query, _, h => by
    obtain ⟨relationship, hrelationship, child, hchild, -⟩ := fieldExpr_relationship_eq_ok.mp h
    rw [fieldOrders, hrelationship, Field.unsupported]
    exact node_accounts context relationship.target _ _ query hchild

end

/-- The orders of a request. -/
def requestOrders (schema : Schema) (request : Request) (bindings : VariableSet) :
    List (Scope × List OrderByElement) :=
  orders ⟨schema, request.relationships, bindings⟩ request.collection
    (AliasPath.root.child request.collection) request.query

/-- The unsupported features of a request that compiles are those on hops that are passed over, and
it has none where the paths of every order are spelled apart. -/
theorem unsupported_features_passed_over {schema : Schema} {request : Request}
    {bindings : VariableSet} {plan : Plan} (h : request.compile schema bindings = .ok plan) :
    request.query.unsupported = (requestOrders schema request bindings).flatMap
        (passedOver ⟨schema, request.relationships, bindings⟩) ∧
      ((∀ order ∈ requestOrders schema request bindings,
          Unambiguous ⟨schema, request.relationships, bindings⟩ order.1 order.2) →
        request.query.unsupported = []) := by
  obtain ⟨result, hnode, -⟩ := compile_eq_ok.mp h
  have haccounts := node_accounts _ _ _ _ _ hnode
  refine ⟨haccounts.features, ?_⟩
  intro hclear
  rw [haccounts.features, List.flatMap_eq_nil_iff]
  intro order horder
  obtain ⟨joins, hjoins⟩ := haccounts.listed order horder
  exact passedOver_of_unambiguous hjoins (hclear order horder)

/-- A comparison of names. -/
def nameTest (operator : String) : Expression :=
  .binary (.column "name" []) operator (.scalar (.string "a"))

/-- Orders of goods with the names of their buyers, sorted by the names behind some hops. -/
def tradeRequest (hops : List PathElement) : Request where
  collection := "orders"
  query := ⟨some [("id", .column "id"), ("buyer", .relationship "buyer"
      ⟨some [("name", .column "name")], none, none, none, none, some (nameTest "_like"), none⟩)],
    some [("count", .starCount)], none, none,
    some ⟨hops.map fun hop => ⟨.asc, .column "name" [hop]⟩⟩,
    some (.existsIn (.related "seller") (some (.not (nameTest "_eq")))),
    some ⟨[.column "buyer_id" []], [("last", .singleColumn "id" "_max")], none, none, none, none⟩⟩
  relationships := tradeContext.relationships
  bindings := none

theorem tradeRequest_has_no_unsupported_features :
    ∃ plan, (tradeRequest [⟨"buyer", some (nameTest "_gt")⟩]).compile tradeContext.schema [] =
        .ok plan ∧
      (tradeRequest [⟨"buyer", some (nameTest "_gt")⟩]).query.unsupported = [] := by
  have hcompiled : (tradeRequest [⟨"buyer", some (nameTest "_gt")⟩]).compile tradeContext.schema
    [] = .ok _ := rfl
  refine ⟨_, hcompiled, (unsupported_features_passed_over hcompiled).2 ?_⟩
  have horders : requestOrders tradeContext.schema
      (tradeRequest [⟨"buyer", some (nameTest "_gt")⟩]) [] =
    [(⟨"orders", "orders"⟩, [⟨.asc, .column "name" [⟨"buyer", some (nameTest "_gt")⟩]⟩])] := rfl
  rw [horders]
  intro order horder first hfirst second hsecond _ _ _
  obtain rfl := List.mem_singleton.mp horder
  have hwalked : walkedPaths [⟨.asc, .column "name" [⟨"buyer", some (nameTest "_gt")⟩]⟩] =
    [[⟨"buyer", some (nameTest "_gt")⟩]] := rfl
  rw [hwalked, List.mem_singleton] at hfirst hsecond
  rw [hfirst, hsecond]

/-- The second hop to the buyer is passed over with its unknown operator. -/
theorem unknown_operator_passed_over :
    ∃ plan, (tradeRequest [⟨"buyer", none⟩, ⟨"buyer", some (nameTest "_regex")⟩]).compile
        tradeContext.schema [] = .ok plan ∧
      (tradeRequest [⟨"buyer", none⟩, ⟨"buyer", some (nameTest "_regex")⟩]).query.unsupported =
        [.unknownOperator "_regex"] := by
  have hcompiled : (tradeRequest [⟨"buyer", none⟩, ⟨"buyer", some (nameTest "_regex")⟩]).compile
    tradeContext.schema [] = .ok _ := rfl
  exact ⟨_, hcompiled, rfl⟩

end Compile

end NestedSql
