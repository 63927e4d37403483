import NestedSql.Proofs.Compile.Success

/-!
# Functions of the compiler and their parts

A function of the compiler succeeds exactly if its parts do, and returns what it builds from them.
This is said once for each function and each form of what it compiles; whatever else is shown about
what is compiled starts from here and opens none of these functions. Which part fails first is only
said of lists.
-/

namespace NestedSql.Compile

open Sql (Condition Expr Join Select Summary Table)

variable {context : Context} {scope : Scope}

/-- A list is compiled by compiling its first item and the others. -/
theorem mapM_cons_eq_ok {α β ε : Type} {step : α → Except ε β} {item : α} {items : List α}
    {results : List β} :
    (item :: items).mapM step = .ok results ↔ ∃ result, step item = .ok result ∧
      ∃ others, items.mapM step = .ok others ∧ result :: others = results := by
  rw [List.mapM_cons]
  simp only [bind_eq_ok, pure_eq_ok]

theorem length_of_mapM {α β ε : Type} {step : α → Except ε β} {items : List α} {results : List β}
    (h : items.mapM step = .ok results) : results.length = items.length := by
  induction items generalizing results with
  | nil =>
    obtain rfl : results = [] := (pure_eq_ok.mp h).symm
    rfl
  | cons item items ih =>
    obtain ⟨result, -, others, hothers, rfl⟩ := mapM_cons_eq_ok.mp h
    rw [List.length_cons, ih hothers, List.length_cons]

/-- The first item that fails is what a list fails with. -/
theorem mapM_eq_error {α β ε : Type} {step : α → Except ε β} {items : List α} {error : ε} :
    items.mapM step = .error error ↔ ∃ before item after, items = before ++ item :: after ∧
      (∀ earlier ∈ before, ∃ result, step earlier = .ok result) ∧ step item = .error error := by
  constructor
  · intro h
    induction items with
    | nil => cases h
    | cons item items ih =>
      rw [List.mapM_cons] at h
      cases hitem : step item with
      | error fault =>
        rw [hitem] at h
        obtain rfl := Except.error.inj h
        exact ⟨[], item, items, rfl, List.forall_mem_nil _, hitem⟩
      | ok result =>
        rw [hitem] at h
        cases hrest : items.mapM step with
        | ok results =>
          change (items.mapM step >>= _) = _ at h
          rw [hrest] at h
          cases h
        | error fault =>
          change (items.mapM step >>= _) = _ at h
          rw [hrest] at h
          obtain rfl := Except.error.inj h
          obtain ⟨before, failing, after, rfl, hbefore, hfails⟩ := ih hrest
          exact ⟨item :: before, failing, after, rfl,
            List.forall_mem_cons.mpr ⟨⟨result, hitem⟩, hbefore⟩, hfails⟩
  · rintro ⟨before, item, after, rfl, hbefore, hfails⟩
    induction before with
    | nil =>
      rw [List.nil_append, List.mapM_cons, hfails]
      rfl
    | cons earlier before ih =>
      obtain ⟨⟨result, hresult⟩, hothers⟩ := List.forall_mem_cons.mp hbefore
      rw [List.cons_append, List.mapM_cons, hresult]
      change ((before ++ item :: after).mapM step >>= _) = _
      rw [ih hothers]
      rfl

/-! ## Filters -/

theorem comparison_eq_ok {target : ComparisonTarget} {operator : String} {value : ComparisonValue}
    {condition : Condition} :
    comparison context scope target operator value = .ok condition ↔
      ∃ op, BinaryOperator.ofName? operator = some op ∧
        ∃ column, namedColumn? target = some column ∧
          ∃ type, context.columnType? scope.collection column = some type ∧
            ∃ shape, comparedShape type op = .ok shape ∧
              ∃ param, comparedValue context value = .ok param ∧
                .compare (scope.column column) op shape param = condition := by
  unfold comparison
  simp only [bind_eq_ok, operatorNamed_eq_ok, comparedColumn_eq_ok, Context.fieldType_eq_ok,
    pure_eq_ok]

section Expressions

attribute [local simp] predicate existsCondition predicates

theorem predicate_and_eq_ok {parts : List Expression} {condition : Condition} :
    predicate context scope (.and parts) = .ok condition ↔
      ∃ conditions, predicates context scope parts = .ok conditions ∧
        junction .and conditions = condition := by
  rw [predicate]
  simp only [bind_eq_ok, pure_eq_ok]

theorem predicate_or_eq_ok {parts : List Expression} {condition : Condition} :
    predicate context scope (.or parts) = .ok condition ↔
      ∃ conditions, predicates context scope parts = .ok conditions ∧
        junction .or conditions = condition := by
  rw [predicate]
  simp only [bind_eq_ok, pure_eq_ok]

theorem predicate_not_eq_ok {part : Expression} {condition : Condition} :
    predicate context scope (.not part) = .ok condition ↔
      ∃ inner, predicate context scope part = .ok inner ∧ .not inner = condition := by
  rw [predicate]
  simp only [bind_eq_ok, pure_eq_ok]

theorem predicate_isNull_eq_ok {target : ComparisonTarget} {condition : Condition} :
    predicate context scope (.unary target .isNull) = .ok condition ↔
      ∃ column, namedColumn? target = some column ∧
        ∃ type, context.columnType? scope.collection column = some type ∧
          .isNull (scope.column column) = condition := by
  rw [predicate]
  simp only [bind_eq_ok, comparedColumn_eq_ok, Context.fieldType_eq_ok, pure_eq_ok]

theorem predicate_binary_eq {target : ComparisonTarget} {operator : String}
    {value : ComparisonValue} :
    predicate context scope (.binary target operator value) =
      comparison context scope target operator value := by
  simp

theorem predicate_unrelated_ne_ok {collection : String} {filter : Option Expression}
    {condition : Condition} :
    predicate context scope (.existsIn (.unrelated collection) filter) ≠ .ok condition := by
  simp [throw_ne_ok]

theorem predicate_related_eq_ok {name : String} {filter : Option Expression}
    {condition : Condition} :
    predicate context scope (.existsIn (.related name) filter) = .ok condition ↔
      ∃ relationship, Entries.get? name context.relationships = some relationship ∧
        ∃ storage, context.schema.storage? relationship.target = some storage ∧
          ∃ inner, existsCondition context (scope.existing relationship.target) filter =
              .ok inner ∧
            .existsIn ⟨storage, (scope.existing relationship.target).tableAlias⟩
              (inner :: joinConditions relationship scope.tableAlias
                (scope.existing relationship.target).tableAlias) = condition := by
  rw [predicate]
  simp only [bind_eq_ok, Context.relationship_eq_ok, Context.storage_eq_ok, pure_eq_ok]

theorem existsCondition_none_eq_ok {condition : Condition} :
    existsCondition context scope none = .ok condition ↔ .tautology = condition := by
  simp [pure_eq_ok]

theorem existsCondition_some_eq_ok {filter : Expression} {condition : Condition} :
    existsCondition context scope (some filter) = .ok condition ↔
      ∃ inner, predicate context scope filter = .ok inner ∧ .group inner = condition := by
  rw [existsCondition]
  simp only [bind_eq_ok, pure_eq_ok]

theorem predicates_nil_eq_ok {conditions : List Condition} :
    predicates context scope [] = .ok conditions ↔ [] = conditions := by
  simp [pure_eq_ok]

theorem predicates_cons_eq_ok {part : Expression} {parts : List Expression}
    {conditions : List Condition} :
    predicates context scope (part :: parts) = .ok conditions ↔
      ∃ first, predicate context scope part = .ok first ∧
        ∃ others, predicates context scope parts = .ok others ∧ first :: others = conditions := by
  rw [predicates]
  simp only [bind_eq_ok, pure_eq_ok]

end Expressions

/-! ## Orders -/

/-- The conditions of a join, of which there is always one. -/
def orOne (conditions : List Condition) : List Condition :=
  if conditions.isEmpty then [.one] else conditions

theorem hopConditions_none_eq_ok {source target : Scope} {relationship : Relationship}
    {conditions : List Condition} :
    hopConditions context source target relationship none = .ok conditions ↔
      orOne (joinConditions relationship source.tableAlias target.tableAlias) = conditions :=
  pure_eq_ok

theorem hopConditions_some_eq_ok {source target : Scope} {relationship : Relationship}
    {filter : Expression} {conditions : List Condition} :
    hopConditions context source target relationship (some filter) = .ok conditions ↔
      ∃ part, predicate context target filter = .ok part ∧
        orOne (joinConditions relationship source.tableAlias target.tableAlias ++
          [.group part]) = conditions := by
  constructor
  · intro h
    obtain ⟨part, hpart, h⟩ := bind_eq_ok.mp h
    exact ⟨part, hpart, pure_eq_ok.mp h⟩
  · rintro ⟨part, hpart, rfl⟩
    exact bind_eq_ok.mpr ⟨part, hpart, rfl⟩

/-- A hop finds the alias of its target joined, or adds a join. -/
theorem followHop_eq_ok {source : Scope} {ordering : Ordering} {hop : PathElement}
    {next : Scope × Ordering} :
    followHop context (source, ordering) hop = .ok next ↔
      ∃ relationship, Entries.get? hop.relationship context.relationships = some relationship ∧
        if ordering.isJoined (source.hop relationship.target).tableAlias then
          (source.hop relationship.target, ordering) = next
        else
          ∃ storage, context.schema.storage? relationship.target = some storage ∧
            ∃ conditions, hopConditions context source (source.hop relationship.target)
                relationship hop.predicate = .ok conditions ∧
              (source.hop relationship.target, ordering.addJoin
                ⟨⟨storage, (source.hop relationship.target).tableAlias⟩, conditions⟩) = next := by
  unfold followHop
  simp only [bind_eq_ok, Context.relationship_eq_ok]
  constructor
  · rintro ⟨relationship, hrelationship, h⟩
    refine ⟨relationship, hrelationship, ?_⟩
    split
    · next hjoined =>
      rw [if_pos hjoined] at h
      exact pure_eq_ok.mp h
    · next hjoined =>
      rw [if_neg hjoined] at h
      simpa only [bind_eq_ok, Context.storage_eq_ok, pure_eq_ok] using h
  · rintro ⟨relationship, hrelationship, h⟩
    refine ⟨relationship, hrelationship, ?_⟩
    split
    · next hjoined =>
      rw [if_pos hjoined] at h
      exact pure_eq_ok.mpr h
    · next hjoined =>
      rw [if_neg hjoined] at h
      simpa only [bind_eq_ok, Context.storage_eq_ok, pure_eq_ok] using h

theorem addElement_column_eq_ok {ordering next : Ordering} {direction : OrderDirection}
    {name : String} {path : List PathElement} :
    addElement context scope ordering ⟨direction, .column name path⟩ = .ok next ↔
      ∃ reached, followPath context scope ordering path = .ok reached ∧
        ∃ type, context.columnType? reached.1.collection name = some type ∧
          ∃ strategy, classify type .ordering = .ok strategy ∧
            reached.2.addKey ⟨.column (reached.1.column name), strategy, some direction⟩ =
              next := by
  unfold addElement
  simp only [bind_eq_ok, Context.fieldType_eq_ok, pure_eq_ok]

/-! ## Nodes -/

/-- Groups are neither filtered nor ordered, and something is asked for. -/
theorem checkRequested_eq_ok {hasFields hasAggregates : Bool} {groups? : Option Grouping} :
    checkRequested hasFields hasAggregates groups? = .ok () ↔
      (∀ grouping, groups? = some grouping → grouping.predicate = none ∧ grouping.orderBy = none) ∧
        (hasFields || hasAggregates || groups?.isSome) = true := by
  cases groups? with
  | none => cases hasFields <;> cases hasAggregates <;> simp [checkRequested, throw_ne_ok, pure_eq_ok]
  | some grouping =>
    obtain ⟨dimensions, aggregates, predicate, orderBy, limit, offset⟩ := grouping
    cases predicate <;> cases orderBy <;>
      simp [checkRequested, checkGrouping, bind_eq_ok, throw_ne_ok, pure_eq_ok]

/-- The conditions that join a node with its parent, if it has one. -/
def parentConditions (scope : Scope) : Option Parent → List Condition
  | none => []
  | some parent => joinConditions parent.relationship parent.tableAlias scope.tableAlias

theorem nodeConditions_none (parent : Option Parent) :
    nodeConditions context scope parent none = .ok (parentConditions scope parent) := by
  cases parent <;> rfl

theorem nodeConditions_some (parent : Option Parent) (filter : Expression) :
    nodeConditions context scope parent (some filter) = (do
      let condition ← predicate context scope filter
      return parentConditions scope parent ++ [.group condition]) := by
  cases parent <;> rfl

theorem summary_function_eq_ok {tableAlias column name : String} {value : Summary} :
    summary tableAlias (.singleColumn column name) = .ok value ↔
      ∃ function, AggregateFunction.ofName? name = some function ∧
        .function function ⟨tableAlias, column⟩ = value := by
  rw [summary]
  split <;> simp [*, pure_eq_ok, throw_ne_ok]

theorem summaries_cons_eq_ok {entry : String × Aggregate} {entries : Entries Aggregate}
    {tableAlias : String} {outputs : List (String × Summary)} :
    summaries (entry :: entries) tableAlias = .ok outputs ↔
      ∃ value, summary tableAlias entry.2 = .ok value ∧
        ∃ others, summaries entries tableAlias = .ok others ∧
          (entry.1, value) :: others = outputs := by
  unfold summaries
  rw [mapM_cons_eq_ok]
  simp only [bind_eq_ok, pure_eq_ok]
  constructor
  · rintro ⟨_, ⟨value, hvalue, rfl⟩, others, hothers, rfl⟩
    exact ⟨value, hvalue, others, hothers, rfl⟩
  · rintro ⟨value, hvalue, others, hothers, rfl⟩
    exact ⟨_, ⟨value, hvalue, rfl⟩, others, hothers, rfl⟩

theorem names_of_summaries {entries : Entries Aggregate} {tableAlias : String}
    {outputs : List (String × Summary)} (h : summaries entries tableAlias = .ok outputs) :
    Entries.names outputs = Entries.names entries := by
  induction entries generalizing outputs with
  | nil =>
    obtain rfl : outputs = [] := (pure_eq_ok.mp h).symm
    rfl
  | cons entry entries ih =>
    obtain ⟨value, -, others, hothers, rfl⟩ := summaries_cons_eq_ok.mp h
    rw [Entries.names_cons, ih hothers]
    rfl

theorem dimension_eq_ok {entry : Dimension} {value : Expr} :
    dimension context scope entry = .ok value ↔ ∃ name, entry = .column name [] ∧
      ∃ type, context.columnType? scope.collection name = some type ∧
        ∃ strategy, classify type .projection = .ok strategy ∧
          .projected strategy (scope.column name) = value := by
  obtain ⟨name, path⟩ := entry
  cases path with
  | nil =>
    rw [dimension]
    simp only [bind_eq_ok, Context.fieldType_eq_ok, pure_eq_ok]
    constructor
    · exact fun h => ⟨name, rfl, h⟩
    · rintro ⟨_, heq, h⟩
      cases heq
      exact h
  | cons hop path =>
    constructor
    · exact fun h => absurd h throw_ne_ok
    · rintro ⟨_, heq, -⟩
      cases heq

/-- The aggregates of a node, if it asks for any. -/
def aggregatesPart (rows : Rows) (aggregates : Option (Entries Aggregate)) :
    Except CompileError (Option Select) :=
  aggregates.mapM fun entries => do return aggregatesSelect rows (← summaries entries subqueryAlias)

theorem aggregatesPart_eq_ok {rows : Rows} {aggregates : Option (Entries Aggregate)}
    {part : Option Select} :
    aggregatesPart rows aggregates = .ok part ↔ (aggregates = none ∧ part = none) ∨
      ∃ entries outputs, aggregates = some entries ∧
        summaries entries subqueryAlias = .ok outputs ∧
          part = some (aggregatesSelect rows outputs) := by
  unfold aggregatesPart
  rw [mapM_eq_ok]
  simp only [bind_eq_ok, pure_eq_ok]
  constructor
  · rintro (h | ⟨entries, _, hentries, ⟨outputs, houtputs, rfl⟩, hpart⟩)
    · exact .inl h
    · exact .inr ⟨entries, outputs, hentries, houtputs, hpart⟩
  · rintro (h | ⟨entries, outputs, hentries, houtputs, hpart⟩)
    · exact .inl h
    · exact .inr ⟨entries, _, hentries, ⟨outputs, houtputs, rfl⟩, hpart⟩

theorem groups_eq_ok {table : Table} {conditions : List Condition} {grouping : Grouping}
    {select : Select} :
    groups context scope table conditions grouping = .ok select ↔ ∃ dimensions outputs,
      grouping.dimensions.mapM (dimension context scope) = .ok dimensions ∧
        summaries grouping.aggregates scope.tableAlias = .ok outputs ∧
          select = groupsSelect table conditions ⟨grouping.limit, grouping.offset⟩ dimensions
            outputs := by
  simp only [groups, bind_eq_ok, pure_eq_ok]
  constructor
  · rintro ⟨dimensions, hdimensions, outputs, houtputs, rfl⟩
    exact ⟨dimensions, outputs, hdimensions, houtputs, rfl⟩
  · rintro ⟨dimensions, outputs, hdimensions, houtputs, rfl⟩
    exact ⟨dimensions, hdimensions, outputs, houtputs, rfl⟩

theorem groupsPart_eq_ok {table : Table} {conditions : List Condition}
    {groups? : Option Grouping} {part : Option Select} :
    groups?.mapM (groups context scope table conditions) = .ok part ↔
      (groups? = none ∧ part = none) ∨
      ∃ grouping dimensions outputs, groups? = some grouping ∧
        grouping.dimensions.mapM (dimension context scope) = .ok dimensions ∧
          summaries grouping.aggregates scope.tableAlias = .ok outputs ∧
            part = some (groupsSelect table conditions ⟨grouping.limit, grouping.offset⟩ dimensions
              outputs) := by
  rw [mapM_eq_ok]
  simp only [groups_eq_ok]
  constructor
  · rintro (h | ⟨grouping, _, hgrouping, ⟨dimensions, outputs, hdimensions, houtputs, rfl⟩, hpart⟩)
    · exact .inl h
    · exact .inr ⟨grouping, dimensions, outputs, hgrouping, hdimensions, houtputs, hpart⟩
  · rintro (h | ⟨grouping, dimensions, outputs, hgrouping, hdimensions, houtputs, hpart⟩)
    · exact .inl h
    · exact .inr ⟨grouping, _, hgrouping, ⟨dimensions, outputs, hdimensions, houtputs, rfl⟩, hpart⟩

section Queries

attribute [local simp] node rowObject fieldMembers fieldExpr

/-- The parts of a node: what its rows, aggregates and groups are made of. -/
theorem node_eq_ok {collection : String} {path : AliasPath} {parent : Option Parent}
    {fields : Option (List (String × Field))} {aggregates : Option (Entries Aggregate)}
    {limit offset : Option UInt32} {orderBy : Option OrderBy} {filter : Option Expression}
    {groups? : Option Grouping} {result : Node} :
    node context collection path parent
        ⟨fields, aggregates, limit, offset, orderBy, filter, groups?⟩ = .ok result ↔
      checkRequested fields.isSome aggregates.isSome groups? = .ok () ∧
      ∃ storage, context.schema.storage? collection = some storage ∧
      ∃ conditions,
        nodeConditions context ⟨collection, path.tableAlias⟩ parent filter = .ok conditions ∧
      ∃ order, ordering context ⟨collection, path.tableAlias⟩ orderBy = .ok order ∧
      ∃ row, rowObject context ⟨collection, path.tableAlias⟩ path fields = .ok row ∧
      ∃ aggregated, aggregatesPart
          ⟨⟨storage, path.tableAlias⟩, conditions, order, ⟨limit, offset⟩⟩ aggregates =
            .ok aggregated ∧
      ∃ grouped, groups?.mapM (groups context ⟨collection, path.tableAlias⟩
          ⟨storage, path.tableAlias⟩ conditions) = .ok grouped ∧
        ⟨row.map (rowsSelect ⟨⟨storage, path.tableAlias⟩, conditions, order, ⟨limit, offset⟩⟩),
          aggregated, grouped⟩ = result := by
  rw [node]
  simp only [bind_eq_ok, Context.storage_eq_ok, pure_eq_ok]
  constructor
  · rintro ⟨⟨⟩, h⟩
    exact h
  · intro h
    exact ⟨(), h⟩

theorem rowObject_none_eq_ok {path : AliasPath} {row : Option Expr} :
    rowObject context scope path none = .ok row ↔ none = row := by
  simp [pure_eq_ok]

theorem rowObject_some_eq_ok {path : AliasPath} {fields : List (String × Field)}
    {row : Option Expr} :
    rowObject context scope path (some fields) = .ok row ↔
      ∃ members, fieldMembers context scope path fields = .ok members ∧
        some (.object members) = row := by
  rw [rowObject]
  simp only [bind_eq_ok, pure_eq_ok]

theorem fieldMembers_nil_eq_ok {path : AliasPath} {members : List (String × Expr)} :
    fieldMembers context scope path [] = .ok members ↔ [] = members := by
  simp [pure_eq_ok]

theorem fieldMembers_cons_eq_ok {path : AliasPath} {name : String} {field : Field}
    {fields : List (String × Field)} {members : List (String × Expr)} :
    fieldMembers context scope path ((name, field) :: fields) = .ok members ↔
      ∃ value, fieldExpr context scope path field = .ok value ∧
        ∃ others, fieldMembers context scope path fields = .ok others ∧
          (name, value) :: others = members := by
  rw [fieldMembers]
  simp only [bind_eq_ok, pure_eq_ok]

theorem fieldExpr_column_eq_ok {path : AliasPath} {name : String} {value : Expr} :
    fieldExpr context scope path (.column name) = .ok value ↔
      ∃ type, context.columnType? scope.collection name = some type ∧
        ∃ strategy, classify type .projection = .ok strategy ∧
          .projected strategy (scope.column name) = value := by
  rw [fieldExpr, columnExpr]
  simp only [bind_eq_ok, Context.fieldType_eq_ok, pure_eq_ok]

theorem fieldExpr_relationship_eq_ok {path : AliasPath} {name : String} {query : Query}
    {value : Expr} :
    fieldExpr context scope path (.relationship name query) = .ok value ↔
      ∃ relationship, Entries.get? name context.relationships = some relationship ∧
        ∃ child, node context relationship.target (path.child relationship.target)
            (some ⟨relationship, scope.tableAlias⟩) query = .ok child ∧
          childExpr child = value := by
  rw [fieldExpr]
  simp only [bind_eq_ok, Context.relationship_eq_ok, pure_eq_ok]

end Queries

/-- The members of the object that embeds a child which asks for more than rows. -/
def childMembers (child : Node) : List (String × Expr) :=
  (child.rows.map fun select => ("rows", Expr.rowsOf (.subquery select))).toList ++
    (child.aggregates.map fun select => ("aggregates", Expr.subquery select)).toList ++
      (child.groups.map fun select => ("groups", Expr.subquery select)).toList

/-- A child is embedded as its rows alone or as an object of its parts. -/
theorem childExpr_cases (child : Node) :
    (∃ rows, child = ⟨some rows, none, none⟩) ∨
      childExpr child = .coalesce (.subquery (.single (.object (childMembers child)) .nothing))
        emptyArray := by
  obtain ⟨rows, aggregates, groups⟩ := child
  cases aggregates with
  | some aggregates => exact .inr (by cases rows <;> cases groups <;> rfl)
  | none =>
    cases groups with
    | some groups => exact .inr (by cases rows <;> rfl)
    | none =>
      cases rows with
      | none => exact .inr rfl
      | some rows => exact .inl ⟨rows, rfl⟩

end NestedSql.Compile
