import Mathlib.Logic.Relation
import NestedSql.Proofs.Compile.Steps
import NestedSql.Proofs.Scoping.Plans

/-!
# Levels of nested queries

A level is a query of the request with the collection, the path and the parent that it is compiled
for: the query of the request itself, and those of its relationship fields at any depth. The selects
of a compiled request that read from a derived table are the rows, aggregates and groups of its
levels: those of every level stand there, and there are no others.
-/

namespace NestedSql

namespace Sql

/-! ## Selects from derived tables -/

mutual

/-- The selects from derived tables that stand in an output, at any depth. -/
@[local simp] def Expr.derivations : Expr → List Select
  | .object members => memberDerivations members
  | .array items => itemDerivations items
  | .collect value _ | .rowsOf value => value.derivations
  | .coalesce value fallback => value.derivations ++ fallback.derivations
  | .subquery select => select.derivations
  | _ => []

@[local simp] def memberDerivations : List (String × Expr) → List Select
  | [] => []
  | (_, value) :: members => value.derivations ++ memberDerivations members

@[local simp] def itemDerivations : List Expr → List Select
  | [] => []
  | item :: items => item.derivations ++ itemDerivations items

@[local simp] def outputDerivations : List (Expr × Option String) → List Select
  | [] => []
  | (value, _) :: outputs => value.derivations ++ outputDerivations outputs

/-- A select from a derived table, and all those inside it. -/
@[local simp] def Select.derivations : Select → List Select
  | ⟨outputs, .derived inner tableAlias, conditions, groupBy, orderBy, page⟩ =>
    ⟨outputs, .derived inner tableAlias, conditions, groupBy, orderBy, page⟩ ::
      (outputDerivations outputs ++ inner.derivations ++ itemDerivations groupBy)
  | ⟨outputs, _, _, groupBy, _, _⟩ => outputDerivations outputs ++ itemDerivations groupBy

end

theorem memberDerivations_eq (members : List (String × Expr)) :
    memberDerivations members = members.flatMap fun member => member.2.derivations := by
  induction members with
  | nil => rfl
  | cons member members ih => simp [ih]

theorem itemDerivations_eq (items : List Expr) :
    itemDerivations items = items.flatMap Expr.derivations := by
  induction items with
  | nil => rfl
  | cons item items ih => simp [ih]

theorem outputDerivations_eq (outputs : List (Expr × Option String)) :
    outputDerivations outputs = outputs.flatMap fun output => output.1.derivations := by
  induction outputs with
  | nil => rfl
  | cons output outputs ih => simp [ih]

/-- A select that reads from a derived table. -/
def Select.IsDerived (select : Select) : Prop :=
  ∃ inner tableAlias, select.source = .derived inner tableAlias

end Sql

namespace Compile

open Sql (Condition Expr Select Source Summary Table itemDerivations itemDerivations_eq
  memberDerivations memberDerivations_eq outputDerivations outputDerivations_eq)

variable {context : Context}

/-! ## Selects of a node -/

/-- The selects from derived tables of a node, those of nested nodes among those of its rows. -/
def Node.derivations (node : Node) : List Select := node.selects.flatMap Select.derivations

theorem sortOutput_derivations (i : Nat) (key : Sql.SortKey) :
    (sortOutput i key).1.derivations = [] := by
  rw [sortOutput]
  cases key.column <;> rfl

theorem rowsSelect_derivations (rows : Rows) (row : Expr) :
    (rowsSelect rows row).derivations = rowsSelect rows row :: row.derivations := by
  have hsorts : outputDerivations (rows.ordering.keys.mapIdx sortOutput) = [] := by
    rw [outputDerivations_eq]
    refine flatMap_numbered_nil ?_ _
    exact sortOutput_derivations
  simp only [rowsSelect, Select.single, Select.derivations, arrayOf, emptyArray, outputDerivations,
    Expr.derivations, memberDerivations, itemDerivations, hsorts, List.nil_append, List.append_nil]

theorem aggregatesSelect_derivations (rows : Rows) (outputs : List (String × Summary)) :
    (aggregatesSelect rows outputs).derivations =
      if outputs.isEmpty then [] else [aggregatesSelect rows outputs] := by
  have hsummaries : memberDerivations (outputs.map fun output => (output.1, .summary output.2)) =
      [] := by
    rw [memberDerivations_eq, List.flatMap_map]
    exact List.flatMap_eq_nil_iff.mpr fun _ _ => rfl
  rw [aggregatesSelect]
  split
  · rfl
  · simp only [Select.single, Select.derivations, outputDerivations, Expr.derivations,
      itemDerivations, hsummaries, List.append_nil]

theorem groupsSelect_derivations (table : Table) (conditions : List Condition) (page : Sql.Page)
    {dimensions : List Expr} (h : itemDerivations dimensions = [])
    (outputs : List (String × Summary)) :
    (groupsSelect table conditions page dimensions outputs).derivations =
      [groupsSelect table conditions page dimensions outputs] := by
  have hnames : (dimensions.mapIdx fun i _ =>
      Expr.output (dimensionName i)).flatMap Expr.derivations = [] :=
    flatMap_numbered_nil (fun _ _ => rfl) dimensions
  have haggregates : (outputs.mapIdx fun i output =>
      (output.1, Expr.output (aggregateName i))).flatMap (fun member => member.2.derivations) =
        [] := by
    refine flatMap_numbered_nil ?_ outputs
    intro i output
    rfl
  have hnamed : outputDerivations (dimensions.mapIdx (fun i value =>
      (value, some (dimensionName i))) ++ outputs.mapIdx (fun i output =>
        (.summary output.2, some (aggregateName i)))) = [] := by
    rw [outputDerivations_eq, List.flatMap_append, List.append_eq_nil_iff]
    constructor
    · rw [← h, itemDerivations_eq]
      refine flatMap_numbered (fun output : Expr × Option String => output.1.derivations)
        Expr.derivations ?_ dimensions
      intro i value
      rfl
    · refine flatMap_numbered_nil ?_ outputs
      intro i output
      rfl
  rw [groupsSelect]
  generalize dimensions.mapIdx (fun i value => (value, some (dimensionName i))) ++
    outputs.mapIdx (fun i output => (Expr.summary output.2, some (aggregateName i))) = named
    at hnamed ⊢
  have hinner : outputDerivations
      (if named.isEmpty then [(.summary .rows, some "n")] else named) = [] := by
    split
    · rfl
    · exact hnamed
  simp only [Select.single, Select.derivations, arrayOf, emptyArray, outputDerivations,
    Expr.derivations, memberDerivations_eq, itemDerivations_eq, List.flatMap_cons,
    List.flatMap_nil, hnames, haggregates, hinner, List.append_nil, List.nil_append]
  rw [← itemDerivations_eq, h]

theorem childExpr_derivations (child : Node) :
    (childExpr child).derivations = child.derivations := by
  obtain ⟨rows, aggregates, groups⟩ := child
  cases rows <;> cases aggregates <;> cases groups <;>
    simp [childExpr, emptyArray, Node.derivations, Node.selects, Select.single,
      Select.derivations, Expr.derivations, outputDerivations, memberDerivations, itemDerivations]

theorem dimensions_derivations {scope : Scope} {dimensions : List Dimension} {values : List Expr}
    (h : dimensions.mapM (dimension context scope) = .ok values) : itemDerivations values = [] := by
  induction dimensions generalizing values with
  | nil =>
    obtain rfl := pure_eq_ok.mp h
    rfl
  | cons entry dimensions ih =>
    obtain ⟨value, hvalue, others, hothers, rfl⟩ := mapM_cons_eq_ok.mp h
    obtain ⟨name, rfl, type, -, strategy, -, rfl⟩ := dimension_eq_ok.mp hvalue
    rw [itemDerivations, ih hothers]
    rfl

/-! ## Levels of a request -/

/-- A query with the collection, the path and the parent that it is compiled for. -/
structure Level where
  collection : String
  path : AliasPath
  parent : Option Parent
  query : Query

namespace Level

/-- The collection of the level under its alias. -/
def scope (level : Level) : Scope := ⟨level.collection, level.path.tableAlias⟩

/-- What the level compiles to. -/
def node (context : Context) (level : Level) : Except CompileError Node :=
  Compile.node context level.collection level.path level.parent level.query

/-- The level of a relationship field inside. -/
def inside (level : Level) (relationship : Relationship) (query : Query) : Level :=
  ⟨relationship.target, level.path.child relationship.target,
    some ⟨relationship, level.path.tableAlias⟩, query⟩

/-- The second level is that of a relationship field of the first. -/
def Asks (context : Context) (level below : Level) : Prop :=
  ∃ fields output name query relationship, level.query.fields = some fields ∧
    (output, .relationship name query) ∈ fields ∧
    Entries.get? name context.relationships = some relationship ∧
    below = level.inside relationship query

/-- The second level is the first, or inside it at any depth. -/
def Reaches (context : Context) : Level → Level → Prop := Relation.ReflTransGen (Asks context)

end Level

/-- A relationship field that compiles is its level, compiled. -/
theorem fieldMembers_level {level : Level} {fields : List (String × Field)}
    {members : List (String × Expr)}
    (h : fieldMembers context level.scope level.path fields = .ok members) :
    (∀ output name query, (output, .relationship name query) ∈ fields →
      ∃ relationship child, Entries.get? name context.relationships = some relationship ∧
        (level.inside relationship query).node context = .ok child ∧
        child.derivations ⊆ memberDerivations members) ∧
    ∀ select ∈ memberDerivations members, ∃ output name query relationship child,
      (output, .relationship name query) ∈ fields ∧
        Entries.get? name context.relationships = some relationship ∧
        (level.inside relationship query).node context = .ok child ∧
        select ∈ child.derivations := by
  induction fields generalizing members with
  | nil =>
    obtain rfl := fieldMembers_nil_eq_ok.mp h
    exact ⟨nofun, nofun⟩
  | cons entry fields ih =>
    obtain ⟨output, field⟩ := entry
    obtain ⟨value, hvalue, others, hothers, rfl⟩ := fieldMembers_cons_eq_ok.mp h
    obtain ⟨hlevels, hselects⟩ := ih hothers
    rw [memberDerivations]
    constructor
    · intro other name query hmem
      rcases List.mem_cons.mp hmem with heq | hmem
      · obtain ⟨rfl, rfl⟩ := Prod.mk.inj heq
        obtain ⟨relationship, hrelationship, child, hchild, rfl⟩ :=
          fieldExpr_relationship_eq_ok.mp hvalue
        refine ⟨relationship, child, hrelationship, hchild, ?_⟩
        rw [childExpr_derivations]
        exact List.subset_append_left _ _
      · obtain ⟨relationship, child, hrelationship, hchild, hsubset⟩ :=
          hlevels other name query hmem
        exact ⟨relationship, child, hrelationship, hchild,
          List.Subset.trans hsubset (List.subset_append_right _ _)⟩
    · intro select hselect
      rcases List.mem_append.mp hselect with hselect | hselect
      · cases field with
        | column name =>
          obtain ⟨type, -, strategy, -, rfl⟩ := fieldExpr_column_eq_ok.mp hvalue
          cases hselect
        | relationship name query =>
          obtain ⟨relationship, hrelationship, child, hchild, rfl⟩ :=
            fieldExpr_relationship_eq_ok.mp hvalue
          rw [childExpr_derivations] at hselect
          exact ⟨output, name, query, relationship, child, List.mem_cons_self, hrelationship,
            hchild, hselect⟩
      · obtain ⟨other, name, query, relationship, child, hmem, h⟩ := hselects select hselect
        exact ⟨other, name, query, relationship, child, List.mem_cons_of_mem _ hmem, h⟩

/-- The rows of a level are its own select and those of the levels right inside. -/
theorem rowObject_level {level : Level} {row : Option Expr}
    (h : rowObject context level.scope level.path level.query.fields = .ok row) :
    (∀ below, level.Asks context below → ∃ value child, row = some value ∧
      below.node context = .ok child ∧ child.derivations ⊆ value.derivations) ∧
    ∀ value, row = some value → ∀ select ∈ value.derivations, ∃ below child,
      level.Asks context below ∧ below.node context = .ok child ∧
        select ∈ child.derivations := by
  cases hfields : level.query.fields with
  | none =>
    rw [hfields] at h
    obtain rfl := rowObject_none_eq_ok.mp h
    refine ⟨?_, nofun⟩
    rintro below ⟨fields, output, name, query, relationship, hsome, -⟩
    rw [hfields] at hsome
    cases hsome
  | some fields =>
    rw [hfields] at h
    obtain ⟨members, hmembers, rfl⟩ := rowObject_some_eq_ok.mp h
    obtain ⟨hlevels, hselects⟩ := fieldMembers_level hmembers
    constructor
    · rintro below ⟨others, output, name, query, relationship, hothers, hmem, hrelationship, rfl⟩
      obtain rfl := Option.some.inj (hfields.symm.trans hothers)
      obtain ⟨found, child, hfound, hchild, hsubset⟩ := hlevels output name query hmem
      obtain rfl := Option.some.inj (hrelationship.symm.trans hfound)
      exact ⟨_, child, rfl, hchild, hsubset⟩
    · intro value hvalue select hselect
      obtain rfl := Option.some.inj hvalue
      obtain ⟨output, name, query, relationship, child, hmem, hrelationship, hchild, hselect⟩ :=
        hselects select hselect
      exact ⟨_, child, ⟨fields, output, name, query, relationship, hfields, hmem, hrelationship,
        rfl⟩, hchild, hselect⟩

namespace Level

theorem Asks.sizeOf_lt {level below : Level} (h : level.Asks context below) :
    sizeOf below.query < sizeOf level.query := by
  obtain ⟨collection, path, parent, fields, aggregates, limit, offset, orderBy, filter, groups?⟩ :=
    level
  obtain ⟨others, output, name, query, relationship, rfl, hmem, -, rfl⟩ := h
  have hfields := List.sizeOf_lt_of_mem hmem
  simp only [Prod.mk.sizeOf_spec, Field.relationship.sizeOf_spec] at hfields
  simp only [inside, Query.mk.sizeOf_spec, Option.some.sizeOf_spec]
  omega

/-- The parts of a level: its rows, aggregates and groups over one table, and the order and the page
of the query. -/
theorem node_parts {level : Level} {result : Node} (h : level.node context = .ok result) :
    ∃ (rows : Rows) (row : Option Expr), rows.table.tableAlias = level.scope.tableAlias ∧
      ordering context level.scope level.query.orderBy = .ok rows.ordering ∧
      rows.page = ⟨level.query.limit, level.query.offset⟩ ∧
      rowObject context level.scope level.path level.query.fields = .ok row ∧
      result.rows = row.map (rowsSelect rows) ∧
      aggregatesPart rows level.query.aggregates = .ok result.aggregates ∧
      level.query.groups.mapM (groups context level.scope rows.table rows.conditions) =
        .ok result.groups := by
  obtain ⟨collection, path, parent, fields, aggregates, limit, offset, orderBy, filter, groups?⟩ :=
    level
  obtain ⟨-, storage, -, conditions, -, order, horder, row, hrow, aggregated, haggregated, grouped,
    hgrouped, rfl⟩ := node_eq_ok.mp h
  exact ⟨⟨⟨storage, path.tableAlias⟩, conditions, order, ⟨limit, offset⟩⟩, row, rfl, horder, rfl,
    hrow, rfl, haggregated, hgrouped⟩

end Level

/-! ## Selects of a level -/

theorem Node.mem_selects {result : Node} {select : Select} : select ∈ result.selects ↔
    result.rows = some select ∨ result.aggregates = some select ∨ result.groups = some select := by
  obtain ⟨rows, aggregates, groups⟩ := result
  cases rows <;> cases aggregates <;> cases groups <;> simp [Node.selects, eq_comm]

theorem mem_derivations_of_isDerived {select : Select} (h : select.IsDerived) :
    select ∈ select.derivations := by
  obtain ⟨outputs, source, conditions, groupBy, orderBy, page⟩ := select
  obtain ⟨inner, tableAlias, rfl⟩ := h
  rw [Select.derivations]
  exact List.mem_cons_self

/-- Each select of a level reads from a derived table under the alias of its part. -/
theorem Level.selects_sources {level : Level} {result : Node}
    (h : level.node context = .ok result) {select inner : Select} {tableAlias : String}
    (hsource : select.source = .derived inner tableAlias) :
    (result.rows = some select → tableAlias = "rows") ∧
    (result.aggregates = some select → tableAlias = subqueryAlias) ∧
    (result.groups = some select → tableAlias = "groups") := by
  obtain ⟨rows, row, -, -, -, -, hrows, haggregated, hgrouped⟩ := level.node_parts h
  refine ⟨fun hpart => ?rows, fun hpart => ?aggregates, fun hpart => ?groups⟩
  case rows =>
    rw [hrows, Option.map_eq_some_iff] at hpart
    obtain ⟨value, -, rfl⟩ := hpart
    injection hsource with _ halias
    exact halias.symm
  case aggregates =>
    obtain ⟨-, hnone⟩ | ⟨entries, outputs, -, -, hsome⟩ := aggregatesPart_eq_ok.mp haggregated
    · cases hnone.symm.trans hpart
    · obtain rfl := Option.some.inj (hsome.symm.trans hpart)
      rw [aggregatesSelect] at hsource
      split at hsource
      · cases hsource
      · injection hsource with _ halias
        exact halias.symm
  case groups =>
    obtain ⟨-, hnone⟩ | ⟨grouping, dimensions, outputs, -, -, -, hsome⟩ :=
      groupsPart_eq_ok.mp hgrouped
    · cases hnone.symm.trans hpart
    · obtain rfl := Option.some.inj (hsome.symm.trans hpart)
      injection hsource with _ halias
      exact halias.symm

/-- The aggregates of a node stand for themselves. -/
theorem aggregatesPart_derivations {rows : Rows} {aggregates : Option (Entries Aggregate)}
    {part : Option Select} (h : aggregatesPart rows aggregates = .ok part) {own select : Select}
    (hown : part = some own) (hselect : select ∈ own.derivations) : select = own := by
  obtain ⟨-, rfl⟩ | ⟨entries, outputs, -, -, rfl⟩ := aggregatesPart_eq_ok.mp h
  · cases hown
  · obtain rfl := Option.some.inj hown
    rw [aggregatesSelect_derivations] at hselect
    split at hselect
    · cases hselect
    · exact List.mem_singleton.mp hselect

/-- The groups of a node stand for themselves. -/
theorem groupsPart_derivations {scope : Scope} {table : Table} {conditions : List Condition}
    {groups? : Option Grouping} {part : Option Select}
    (h : groups?.mapM (groups context scope table conditions) = .ok part) {own select : Select}
    (hown : part = some own) (hselect : select ∈ own.derivations) : select = own := by
  obtain ⟨-, rfl⟩ | ⟨grouping, dimensions, outputs, -, hdimensions, -, rfl⟩ :=
    groupsPart_eq_ok.mp h
  · cases hown
  · obtain rfl := Option.some.inj hown
    rw [groupsSelect_derivations _ _ _ (dimensions_derivations hdimensions)] at hselect
    exact List.mem_singleton.mp hselect

namespace Level

/-- What a level compiles to holds its own selects and those of the levels right inside. -/
theorem derivations_spec {level : Level} {result : Node} (h : level.node context = .ok result) :
    (∀ below, level.Asks context below → ∃ child, below.node context = .ok child ∧
      child.derivations ⊆ result.derivations) ∧
    ∀ select ∈ result.derivations, select ∈ result.selects ∨ ∃ below child,
      level.Asks context below ∧ below.node context = .ok child ∧
        select ∈ child.derivations := by
  obtain ⟨rows, row, -, -, -, hrow, hrows, haggregated, hgrouped⟩ := node_parts h
  obtain ⟨hlevels, hselects⟩ := rowObject_level hrow
  constructor
  · intro below hbelow
    obtain ⟨value, child, rfl, hchild, hsubset⟩ := hlevels below hbelow
    refine ⟨child, hchild, fun select hselect => ?_⟩
    refine List.mem_flatMap.mpr ⟨_, Node.mem_selects.mpr (.inl hrows), ?_⟩
    rw [rowsSelect_derivations]
    exact List.mem_cons_of_mem _ (hsubset hselect)
  · intro select hselect
    obtain ⟨own, hown, hselect⟩ := List.mem_flatMap.mp hselect
    rcases Node.mem_selects.mp hown with hpart | hpart | hpart
    · rw [hrows, Option.map_eq_some_iff] at hpart
      obtain ⟨value, rfl, rfl⟩ := hpart
      rw [rowsSelect_derivations] at hselect
      rcases List.mem_cons.mp hselect with rfl | hselect
      · exact .inl hown
      · exact .inr (hselects value rfl select hselect)
    · obtain rfl := aggregatesPart_derivations haggregated hpart hselect
      exact .inl hown
    · obtain rfl := groupsPart_derivations hgrouped hpart hselect
      exact .inl hown

/-- Every level of a level that compiles does so, and its selects stand in what encloses it. -/
theorem Reaches.derivations_subset {outer level : Level} {result : Node}
    (hreach : outer.Reaches context level) (h : outer.node context = .ok result) :
    ∃ child, level.node context = .ok child ∧ child.derivations ⊆ result.derivations := by
  induction hreach with
  | refl => exact ⟨result, h, List.Subset.refl _⟩
  | tail _ hasks ih =>
    obtain ⟨middle, hmiddle, hsubset⟩ := ih
    obtain ⟨child, hchild, hinside⟩ := (derivations_spec hmiddle).1 _ hasks
    exact ⟨child, hchild, List.Subset.trans hinside hsubset⟩

/-- Every select from a derived table is one of a level. -/
theorem reaches_of_mem_derivations {outer : Level} {result : Node} {select : Select}
    (h : outer.node context = .ok result) (hselect : select ∈ result.derivations) :
    ∃ level child, outer.Reaches context level ∧ level.node context = .ok child ∧
      select ∈ child.selects := by
  -- a select that is not of the level itself stands in a level right inside, whose query is smaller
  induction hsize : sizeOf outer.query using Nat.strongRecOn generalizing outer result with
  | ind size ih =>
    rcases (derivations_spec h).2 select hselect with hown | ⟨below, child, hasks, hchild, hinside⟩
    · exact ⟨outer, result, .refl, h, hown⟩
    · obtain ⟨level, found, hreach, hfound, hmem⟩ :=
        ih _ (hsize ▸ hasks.sizeOf_lt) hchild hinside rfl
      exact ⟨level, found, .head hasks hreach, hfound, hmem⟩

end Level

end Compile

/-- The level of the query itself. -/
def Request.level (request : Request) : Compile.Level :=
  ⟨request.collection, Compile.AliasPath.root.child request.collection, none, request.query⟩

/-- A compiled request holds the selects of all its levels, and no others from derived tables. -/
theorem Compile.compile_levels {schema : Schema} {request : Request} {bindings : VariableSet}
    {plan : Plan} (h : request.compile schema bindings = .ok plan) :
    ∃ result, root ⟨schema, request.relationships, bindings⟩ request.collection request.query =
        .ok result ∧ Plan.ofNode result = plan ∧
      (∀ level : Level,
        request.level.Reaches ⟨schema, request.relationships, bindings⟩ level →
          ∃ child, level.node ⟨schema, request.relationships, bindings⟩ = .ok child ∧
            ∀ select ∈ child.selects, select.IsDerived → select ∈ result.derivations) ∧
      ∀ select ∈ result.derivations, ∃ (level : Level) (child : Node),
        request.level.Reaches ⟨schema, request.relationships, bindings⟩ level ∧
          level.node ⟨schema, request.relationships, bindings⟩ = .ok child ∧
            select ∈ child.selects := by
  obtain ⟨result, hroot, hplan⟩ := compile_eq_ok.mp h
  have hlevel : request.level.node ⟨schema, request.relationships, bindings⟩ = .ok result := hroot
  refine ⟨result, hroot, hplan, fun level hreach => ?_,
    fun select hselect => Level.reaches_of_mem_derivations hlevel hselect⟩
  obtain ⟨child, hchild, hsubset⟩ := hreach.derivations_subset hlevel
  refine ⟨child, hchild, fun select hselect hderived => hsubset ?_⟩
  exact List.mem_flatMap.mpr ⟨select, hselect, mem_derivations_of_isDerived hderived⟩

/-- A compiled request holds what the groupings of all its levels compile to, and no other groups. -/
theorem Compile.compile_groups {schema : Schema} {request : Request} {bindings : VariableSet}
    {plan : Plan} (h : request.compile schema bindings = .ok plan) :
    ∃ result, root ⟨schema, request.relationships, bindings⟩ request.collection request.query =
        .ok result ∧ Plan.ofNode result = plan ∧
      (∀ (level : Level) grouping,
        request.level.Reaches ⟨schema, request.relationships, bindings⟩ level →
          level.query.groups = some grouping → ∃ table conditions select,
            groups ⟨schema, request.relationships, bindings⟩ level.scope table conditions grouping =
                .ok select ∧ select ∈ result.derivations) ∧
      ∀ select ∈ result.derivations, ∀ inner, select.source = .derived inner "groups" →
        ∃ (level : Level) (grouping : Grouping) (table : Sql.Table)
          (conditions : List Sql.Condition),
          request.level.Reaches ⟨schema, request.relationships, bindings⟩ level ∧
            level.query.groups = some grouping ∧
              groups ⟨schema, request.relationships, bindings⟩ level.scope table conditions
                grouping = .ok select := by
  obtain ⟨result, hroot, hplan, hstand, honly⟩ := compile_levels h
  refine ⟨result, hroot, hplan, fun level grouping hreach hgrouping => ?stand, ?only⟩
  case stand =>
    obtain ⟨child, hchild, hselects⟩ := hstand level hreach
    obtain ⟨rows, -, -, -, -, -, -, -, hgroups⟩ := level.node_parts hchild
    obtain ⟨hnone, -⟩ | ⟨other, select, hother, hselect, hpart⟩ := mapM_eq_ok.mp hgroups
    · cases hgrouping.symm.trans hnone
    · obtain rfl := Option.some.inj (hgrouping.symm.trans hother)
      obtain ⟨dimensions, outputs, -, -, hgroupsSelect⟩ := groups_eq_ok.mp hselect
      have hderived : select.IsDerived := by
        rw [hgroupsSelect]
        exact ⟨_, _, rfl⟩
      exact ⟨rows.table, rows.conditions, select, hselect,
        hselects select (Node.mem_selects.mpr (.inr (.inr hpart))) hderived⟩
  case only =>
    intro select hselect inner hsource
    obtain ⟨level, child, hreach, hchild, hmem⟩ := honly select hselect
    obtain ⟨hrows, haggregates, -⟩ := level.selects_sources hchild hsource
    rcases Node.mem_selects.mp hmem with hpart | hpart | hpart
    · exact absurd (hrows hpart) (by decide)
    · exact absurd (haggregates hpart) (by decide)
    · obtain ⟨rows, -, -, -, -, -, -, -, hgroups⟩ := level.node_parts hchild
      obtain ⟨-, hnone⟩ | ⟨grouping, other, hgrouping, hother, hsome⟩ := mapM_eq_ok.mp hgroups
      · cases hpart.symm.trans hnone
      · obtain rfl := Option.some.inj (hpart.symm.trans hsome)
        exact ⟨level, grouping, rows.table, rows.conditions, hreach, hgrouping, hother⟩

end NestedSql
