import NestedSql.Proofs.Scoping.Nodes

/-!
# Scopes of plans

The aliases of each FROM clause in a plan are distinct, and its ON conditions need nothing to their
right and nothing around the clause. With the references of nodes this is all of the scoping of a
compiled request.
-/

namespace NestedSql.Compile

open Sql (Condition Expr Join Select SeparateClause SortKey Source Summary Table conditionSources
  fromClause itemSources joinReferences memberSources outputSources)

/-! ## FROM clauses -/

theorem ordering_separate {context : Context} {scope : Scope} {orderBy : Option OrderBy}
    {result : Ordering} (h : ordering context scope orderBy = .ok result) (storage : String) :
    SeparateClause ⟨storage, scope.tableAlias⟩ result.joins := by
  obtain ⟨walk, -, htracks⟩ := ordering_tracks h .outside storage
  constructor
  · have hnames := congrArg Entries.names htracks.items
    have hspelled : Entries.names
        (walk.items.map fun entry => (scope.tableAlias ++ entry.1, entry.2)) =
          (Entries.names walk.items).map (scope.tableAlias ++ ·) := by
      simp only [Entries.names, List.map_map, Function.comp_def]
    rw [names_items, hspelled] at hnames
    rw [Entries.Distinct, hnames]
    refine List.pairwise_map.mpr (htracks.distinct.imp fun hne heq => hne ?_)
    exact (String.append_right_inj scope.tableAlias).mp heq
  · rw [htracks.joins]
    simp

/-- The FROM clauses of all sources are separate. -/
def AllSeparate (sources : List Source) : Prop := ∀ source ∈ sources, source.Separate

theorem AllSeparate.append {first second : List Source} (hf : AllSeparate first)
    (hs : AllSeparate second) : AllSeparate (first ++ second) := by
  intro source hmem
  obtain hmem | hmem := List.mem_append.mp hmem
  · exact hf source hmem
  · exact hs source hmem

theorem separate_single (table : Table) : SeparateClause table [] where
  distinct := by simp [fromClause, Entries.Distinct, Entries.names]
  resolved := List.not_mem_nil

mutual

/-- An existence test brings a clause of one table. -/
theorem Condition.sources_separate : (condition : Condition) → AllSeparate condition.sources
  | .one | .tautology | .equal _ _ | .isNull _ | .compare _ _ _ _ => nofun
  | .junction _ parts => conditionSources_separate parts
  | .not part | .group part => Condition.sources_separate part
  | .existsIn table conditions => by
    intro source hsource
    rw [Condition.sources] at hsource
    obtain rfl | hsource := List.mem_cons.mp hsource
    · exact separate_single table
    · exact conditionSources_separate conditions source hsource

theorem conditionSources_separate : (conditions : List Condition) →
    AllSeparate (conditionSources conditions)
  | [] => nofun
  | condition :: conditions =>
    (Condition.sources_separate condition).append (conditionSources_separate conditions)

end

theorem tables_separate {table : Table} {joins : List Join}
    (h : SeparateClause table joins) : AllSeparate (Source.tables table joins).sources := by
  intro source hsource
  rw [Source.sources] at hsource
  obtain rfl | hsource := List.mem_cons.mp hsource
  · exact h
  · obtain ⟨join, -, hsource⟩ := List.mem_flatMap.mp hsource
    exact conditionSources_separate join.conditions source hsource

theorem allSeparate_of_nil {sources : List Source} (h : sources = []) : AllSeparate sources := by
  subst h
  exact nofun

/-- The existence tests in the conditions of a select need no assumption. -/
theorem select_separate {outputs : List (Expr × Option String)} {source : Source}
    {conditions : List Condition} {groupBy : List Expr} {orderBy : List SortKey} {page : Sql.Page}
    (houtputs : AllSeparate (outputSources outputs)) (hsource : AllSeparate source.sources)
    (hgroups : AllSeparate (itemSources groupBy)) :
    AllSeparate (Select.sources ⟨outputs, source, conditions, groupBy, orderBy, page⟩) := by
  rw [Select.sources]
  exact ((houtputs.append hsource).append (conditionSources_separate conditions)).append hgroups

theorem nothing_separate : AllSeparate Source.nothing.sources := by
  intro source hsource
  obtain rfl := List.mem_singleton.mp hsource
  trivial

theorem derived_separate {select : Select} (h : AllSeparate select.sources)
    (tableAlias : String) : AllSeparate (Source.derived select tableAlias).sources := by
  intro source hsource
  rw [Source.sources] at hsource
  obtain rfl | hsource := List.mem_cons.mp hsource
  · trivial
  · exact h source hsource

/-- The selects of a node. -/
def Node.selects (node : Node) : List Select :=
  [node.rows, node.aggregates, node.groups].filterMap id

section Sources

theorem memberSources_eq (members : List (String × Expr)) :
    memberSources members = members.flatMap fun member => member.2.sources := by
  induction members with
  | nil => rfl
  | cons member members ih => rw [memberSources, ih, List.flatMap_cons]

theorem itemSources_eq (items : List Expr) : itemSources items = items.flatMap Expr.sources := by
  induction items with
  | nil => rfl
  | cons item items ih => rw [itemSources, ih, List.flatMap_cons]

theorem outputSources_eq (outputs : List (Expr × Option String)) :
    outputSources outputs = outputs.flatMap fun output => output.1.sources := by
  induction outputs with
  | nil => rfl
  | cons output outputs ih => rw [outputSources, ih, List.flatMap_cons]

theorem sortOutput_sources (i : Nat) (key : SortKey) : (sortOutput i key).1.sources = [] := by
  rw [sortOutput]
  cases key.column <;> rfl

theorem rowsSelect_separate {rows : Rows} {row : Expr}
    (hclause : SeparateClause rows.table rows.ordering.joins) (hrow : AllSeparate row.sources) :
    AllSeparate (rowsSelect rows row).sources := by
  have hsort : (rows.ordering.keys.mapIdx sortOutput).flatMap
      (fun output => output.1.sources) = [] := by
    refine flatMap_numbered_nil ?_ rows.ordering.keys
    exact sortOutput_sources
  have houtputs : AllSeparate
      (outputSources ((row, some "r") :: rows.ordering.keys.mapIdx sortOutput)) := by
    rw [outputSources, outputSources_eq, hsort, List.append_nil]
    exact hrow
  exact select_separate (allSeparate_of_nil rfl)
    (derived_separate (select_separate houtputs (tables_separate hclause)
      (allSeparate_of_nil rfl)) "rows") (allSeparate_of_nil rfl)

theorem aggregatesSelect_separate {rows : Rows}
    (hclause : SeparateClause rows.table rows.ordering.joins) (outputs : List (String × Summary)) :
    AllSeparate (aggregatesSelect rows outputs).sources := by
  have hnone : outputs.flatMap (fun _ => ([] : List Source)) = [] :=
    List.flatMap_eq_nil_iff.mpr fun _ _ => rfl
  rw [aggregatesSelect]
  split
  · exact select_separate (allSeparate_of_nil rfl) nothing_separate (allSeparate_of_nil rfl)
  · refine select_separate (allSeparate_of_nil ?_)
      (derived_separate (select_separate (allSeparate_of_nil rfl) (tables_separate hclause)
        (allSeparate_of_nil rfl)) subqueryAlias) (allSeparate_of_nil rfl)
    simp only [outputSources, Expr.sources, memberSources_eq, List.flatMap_map, hnone,
      List.append_nil]

theorem outputSources_grouped {dimensions : List Expr} (h : itemSources dimensions = [])
    (outputs : List (String × Summary)) :
    outputSources
        (dimensions.mapIdx (fun i value => (value, some (dimensionName i))) ++
          outputs.mapIdx (fun i output => (.summary output.2, some (aggregateName i)))) = [] := by
  rw [outputSources_eq, List.flatMap_append, List.append_eq_nil_iff]
  constructor
  · rw [← h, itemSources_eq]
    refine flatMap_numbered (fun output : Expr × Option String => output.1.sources) Expr.sources
      ?_ dimensions
    intro i value
    rfl
  · refine flatMap_numbered_nil ?_ outputs
    intro i output
    rfl

theorem outputSources_orCount (named : List (Expr × Option String)) :
    outputSources (if named.isEmpty then [(.summary .rows, some "n")] else named) =
      outputSources named := by
  cases named <;> rfl

theorem groupsSelect_separate (table : Table) (conditions : List Condition) (page : Sql.Page)
    {dimensions : List Expr} (h : itemSources dimensions = [])
    (outputs : List (String × Summary)) :
    AllSeparate (groupsSelect table conditions page dimensions outputs).sources := by
  have hdimensions : (dimensions.mapIdx fun i _ =>
      Expr.output (dimensionName i)).flatMap Expr.sources = [] :=
    flatMap_numbered_nil (fun _ _ => rfl) dimensions
  have haggregates : (outputs.mapIdx fun i output =>
      (output.1, Expr.output (aggregateName i))).flatMap (fun member => member.2.sources) = [] := by
    refine flatMap_numbered_nil ?_ outputs
    intro i output
    rfl
  refine select_separate (allSeparate_of_nil ?_) (derived_separate (select_separate
    (allSeparate_of_nil ?_) (tables_separate (separate_single table)) (allSeparate_of_nil h))
    "groups") (allSeparate_of_nil rfl)
  · simp only [outputSources, arrayOf, emptyArray, Expr.sources, memberSources_eq, itemSources_eq,
      List.flatMap_cons, List.flatMap_nil, hdimensions, haggregates, List.append_nil]
  · rw [outputSources_orCount, outputSources_grouped h]

theorem childExpr_sources {child : Node} {source : Source}
    (h : source ∈ (childExpr child).sources) :
    source = .nothing ∨ ∃ select ∈ child.selects, source ∈ select.sources := by
  obtain ⟨rows, aggregates, groups⟩ := child
  cases rows <;> cases aggregates <;> cases groups <;>
    simp [childExpr, Expr.sources, emptyArray, itemSources, Select.single, Select.sources,
      Source.sources, outputSources, memberSources, conditionSources, Node.selects] at h ⊢ <;>
    grind

theorem dimensions_sources {context : Context} {scope : Scope} {dimensions : List Dimension}
    {values : List Expr} (h : dimensions.mapM (dimension context scope) = .ok values) :
    itemSources values = [] := by
  induction dimensions generalizing values with
  | nil =>
    obtain rfl := pure_eq_ok.mp h
    rfl
  | cons entry dimensions ih =>
    obtain ⟨value, hvalue, others, hothers, rfl⟩ := mapM_cons_eq_ok.mp h
    obtain ⟨name, rfl, type, -, strategy, -, rfl⟩ := dimension_eq_ok.mp hvalue
    rw [itemSources, ih hothers]
    rfl

end Sources

/-- The FROM clauses of all selects of a node are separate. -/
def Node.Separate (node : Node) : Prop := ∀ select ∈ node.selects, AllSeparate select.sources

theorem Node.Separate.childExpr {node : Node} (h : node.Separate) :
    AllSeparate (childExpr node).sources := by
  intro source hsource
  obtain rfl | ⟨select, hselect, hsource⟩ := childExpr_sources hsource
  · trivial
  · exact h select hselect source hsource

theorem node_parts_separate {rows aggregates groups : Option Select}
    (hrows : ∀ select ∈ rows, AllSeparate select.sources)
    (haggregates : ∀ select ∈ aggregates, AllSeparate select.sources)
    (hgroups : ∀ select ∈ groups, AllSeparate select.sources) :
    (⟨rows, aggregates, groups⟩ : Node).Separate := by
  intro select hselect
  simp only [Node.selects, List.mem_filterMap, List.mem_cons, List.not_mem_nil, or_false, id_eq]
    at hselect
  obtain ⟨part, rfl | rfl | rfl, hpart⟩ := hselect
  · exact hrows select hpart
  · exact haggregates select hpart
  · exact hgroups select hpart

mutual

/-- The FROM clauses of a compiled node, and of the nodes inside it, are separate. -/
theorem node_separate (context : Context) : (collection : String) → (path : AliasPath) →
    (parent : Option Parent) → (query : Query) → {result : Node} →
    node context collection path parent query = .ok result → result.Separate
  | collection, path, parent, ⟨fields, aggregates, limit, offset, orderBy, filter, groups?⟩, _,
      h => by
    obtain ⟨-, storage, -, conditions, -, order, horder, row, hrow, aggregated, haggregates,
      grouped, hgroups, rfl⟩ := node_eq_ok.mp h
    have hclause := ordering_separate horder storage
    refine node_parts_separate ?_ ?_ ?_
    · intro select hselect
      obtain ⟨value, hvalue, rfl⟩ := Option.map_eq_some_iff.mp hselect
      exact rowsSelect_separate hclause
        (rowObject_separate context _ path fields hrow value hvalue)
    · intro select hselect
      obtain ⟨-, rfl⟩ | ⟨entries, outputs, -, -, rfl⟩ := aggregatesPart_eq_ok.mp haggregates
      · cases hselect
      · obtain rfl := Option.some.inj hselect
        exact aggregatesSelect_separate hclause outputs
    · intro select hselect
      obtain ⟨-, rfl⟩ | ⟨grouping, dimensions, outputs, -, hdimensions, -, rfl⟩ :=
        groupsPart_eq_ok.mp hgroups
      · cases hselect
      · obtain rfl := Option.some.inj hselect
        exact groupsSelect_separate _ _ _ (dimensions_sources hdimensions) outputs

theorem rowObject_separate (context : Context) : (scope : Scope) → (path : AliasPath) →
    (fields : Option (List (String × Field))) → {row : Option Expr} →
    rowObject context scope path fields = .ok row →
      ∀ value ∈ row, AllSeparate value.sources
  | scope, path, none, _, h => by
    obtain rfl := rowObject_none_eq_ok.mp h
    exact nofun
  | scope, path, some fields, _, h => by
    obtain ⟨members, hmembers, rfl⟩ := rowObject_some_eq_ok.mp h
    intro value hvalue
    obtain rfl := Option.some.inj hvalue
    rw [Expr.sources]
    exact fieldMembers_separate context scope path fields hmembers

theorem fieldMembers_separate (context : Context) : (scope : Scope) → (path : AliasPath) →
    (fields : List (String × Field)) → {members : List (String × Expr)} →
    fieldMembers context scope path fields = .ok members → AllSeparate (memberSources members)
  | scope, path, [], _, h => by
    obtain rfl := fieldMembers_nil_eq_ok.mp h
    exact nofun
  | scope, path, (name, field) :: fields, _, h => by
    obtain ⟨value, hvalue, members, hmembers, rfl⟩ := fieldMembers_cons_eq_ok.mp h
    rw [memberSources]
    exact (fieldExpr_separate context scope path field hvalue).append
      (fieldMembers_separate context scope path fields hmembers)

theorem fieldExpr_separate (context : Context) : (scope : Scope) → (path : AliasPath) →
    (field : Field) → {value : Expr} → fieldExpr context scope path field = .ok value →
      AllSeparate value.sources
  | scope, path, .column name, _, h => by
    obtain ⟨type, -, strategy, -, rfl⟩ := fieldExpr_column_eq_ok.mp h
    exact nofun
  | scope, path, .relationship name query, _, h => by
    obtain ⟨relationship, -, child, hchild, rfl⟩ := fieldExpr_relationship_eq_ok.mp h
    exact (node_separate context _ _ _ query hchild).childExpr

end

theorem Node.Finds.resolved {result : Node} {visible : Sql.Visible} {references : NodeReferences}
    (h : result.Finds visible references) :
    ∀ select ∈ result.selects, none ∉ select.references visible := by
  have hfound : ∀ {part : Option Select} {meant : Option (List Sql.Reference)} {select : Select},
      part.map (Select.references visible) = meant.map (List.map some) → part = some select →
        none ∉ select.references visible := by
    rintro part meant select heq rfl
    obtain ⟨list, -, hlist⟩ := Option.map_eq_some_iff.mp heq.symm
    rw [← hlist]
    simp
  intro select hselect
  simp only [Node.selects, List.mem_filterMap, List.mem_cons, List.not_mem_nil, or_false, id_eq]
    at hselect
  obtain ⟨part, rfl | rfl | rfl, hpart⟩ := hselect
  · exact hfound h.rows hpart
  · exact hfound h.aggregates hpart
  · exact hfound h.groups hpart

/-- In the statements of a compiled request the aliases of each FROM clause are distinct, each ON
condition is resolved by the items up to its own, and every reference finds an item: the one that
it is meant for. -/
theorem compiled_references_resolve {schema : Schema} {request : Request} {bindings : VariableSet}
    {plan : Plan} (h : request.compile schema bindings = .ok plan) :
    ∃ result references,
      root ⟨schema, request.relationships, bindings⟩ request.collection request.query =
        .ok result ∧
      Plan.ofNode result = plan ∧
      (∀ select ∈ result.selects, ∀ source ∈ select.sources, source.Separate) ∧
      (∀ select ∈ result.selects, none ∉ select.references .outside) ∧
      nodeReferences ⟨schema, request.relationships, bindings⟩ 0 request.collection none
        request.query = some references ∧
      result.Finds .outside references := by
  obtain ⟨result, hroot, hplan⟩ := compile_eq_ok.mp h
  obtain ⟨references, hreferences, hfinds⟩ := node_references _ _ _ none _ hroot
    (List.cons_ne_nil _ _) .outside none .root
  exact ⟨result, references, hroot, hplan, node_separate _ _ _ _ _ hroot, hfinds.resolved,
    hreferences, hfinds⟩

/-- Collections whose names are also written by the compiler itself. -/
def rowsSchema : Schema :=
  (Schema.empty.registerColumns "rows" "main.rows" [("id", .named "Int")]).registerColumns
    "exists" "main.exists" [("id", .named "Int"), ("owner", .named "Int")]

/-- The node, its sort join, its existence test and its child all write `rows` or `rows_exists`. -/
def rowsRequest : Request where
  collection := "rows"
  query :=
    { fields := some [("inner", .relationship "up" ⟨some [("id", .column "id")], none, none, none,
        some ⟨[⟨.asc, .column "id" [⟨"down", none⟩]⟩]⟩,
        some (.existsIn (.related "down") (some (.unary (.column "id" []) .isNull))), none⟩)]
      aggregates := none
      limit := none
      offset := none
      orderBy := some ⟨[⟨.desc, .column "owner" [⟨"up", none⟩]⟩]⟩
      predicate := some (.existsIn (.related "up") none)
      groups := some ⟨[.column "id" []], [("n", .starCount)], none, none, none, none⟩ }
  relationships := [("up", ⟨[("id", "owner")], .array, "exists"⟩),
    ("down", ⟨[("owner", "id")], .object, "rows"⟩)]
  bindings := none

theorem rowsRequest_references_resolve :
    ∃ plan result, rowsRequest.compile rowsSchema [] = .ok plan ∧ Plan.ofNode result = plan ∧
      (∀ select ∈ result.selects, ∀ source ∈ select.sources, source.Separate) ∧
      result.groups.map (Select.references .outside) = some [
        some ⟨⟨0, 0, some "main.rows"⟩, some "id"⟩,
        some ⟨⟨0, 0, some "main.rows"⟩, some "id"⟩,
        some ⟨⟨1, 0, some "main.exists"⟩, some "owner"⟩,
        some ⟨⟨0, 0, some "main.rows"⟩, some "id"⟩] ∧
      result.rows.map (Select.references .outside) = some [
        some ⟨⟨1, 0, some "main.exists"⟩, some "id"⟩,
        some ⟨⟨1, 1, some "main.rows"⟩, some "id"⟩,
        some ⟨⟨1, 0, some "main.exists"⟩, some "owner"⟩,
        some ⟨⟨1, 1, some "main.rows"⟩, some "id"⟩,
        some ⟨⟨0, 0, some "main.rows"⟩, some "id"⟩,
        some ⟨⟨1, 0, some "main.exists"⟩, some "owner"⟩,
        some ⟨⟨2, 0, some "main.rows"⟩, some "id"⟩,
        some ⟨⟨1, 0, some "main.exists"⟩, some "owner"⟩,
        some ⟨⟨2, 0, some "main.rows"⟩, some "id"⟩,
        some ⟨⟨1, 1, some "main.rows"⟩, some "id"⟩,
        some ⟨⟨0, 1, some "main.exists"⟩, some "owner"⟩,
        some ⟨⟨0, 0, some "main.rows"⟩, some "id"⟩,
        some ⟨⟨0, 1, some "main.exists"⟩, some "owner"⟩,
        some ⟨⟨0, 0, some "main.rows"⟩, some "id"⟩,
        some ⟨⟨1, 0, some "main.exists"⟩, some "owner"⟩,
        some ⟨⟨0, 1, some "main.exists"⟩, some "owner"⟩] := by
  have hcompiled : rowsRequest.compile rowsSchema [] = .ok _ := rfl
  obtain ⟨result, references, -, hplan, hseparate, -, hreferences, hfinds⟩ :=
    compiled_references_resolve hcompiled
  have heq := Option.some.inj (hreferences.symm.trans (rfl : _ = some _))
  refine ⟨_, result, hcompiled, hplan, hseparate, ?_, ?_⟩
  · rw [hfinds.groups, heq]
    rfl
  · rw [hfinds.rows, heq]
    rfl

end NestedSql.Compile
