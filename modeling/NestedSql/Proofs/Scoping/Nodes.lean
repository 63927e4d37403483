import NestedSql.Proofs.Scoping.Orders

/-!
# References of plans

A node has one FROM clause for its rows, with the joins of its order, and its references are meant
for the table of that clause, for the items of its order, for the item of its parent, or for items
that its filters bring. Nested nodes stand one clause further in. The selects of a compiled request
have exactly these references, each found by the alias that is written: an alias hides only
shorter-lived names that nothing inside asks for, since every alias that a clause binds is longer
than the alias of the parent. Aliases of one clause are distinct.
-/

namespace NestedSql.Compile

open Sql (Condition Expr Item Join Reference Select SortKey Source Summary Table Visible fromClause
  itemReferences joinReferences memberReferences outputReferences referencesAll)

/-! ## References that are meant -/

/-- The references of the parts of a node, for each part that it has. -/
structure NodeReferences where
  rows : Option (List Reference)
  aggregates : Option (List Reference)
  groups : Option (List Reference)

def NodeReferences.all (references : NodeReferences) : List Reference :=
  ([references.rows, references.aggregates, references.groups].filterMap id).flatten

/-- The column of an aggregate, read from an item. -/
def argumentReference (item : Item) : Aggregate → List Reference
  | .starCount => []
  | .columnCount column _ | .singleColumn column _ => [⟨item, some column⟩]

def argumentReferences (item : Item) (aggregates : Entries Aggregate) : List Reference :=
  aggregates.flatMap fun entry => argumentReference item entry.2

def dimensionReferences (item : Item) (dimensions : List Dimension) : List Reference :=
  dimensions.map fun
    | .column name _ => ⟨item, some name⟩

/-- The mapping to the parent of a node, if it has one. -/
def parentReferences (own : Item) : Option (Relationship × Item) → List Reference
  | none => []
  | some (relationship, parent) => mappingReferences relationship parent own

/-- The references of the parts of a node from those of its conditions, its order and its row. The
aggregates read the derived table around the rows, which stands where their own clause does. -/
def partReferences (own : Item) (conditions : List Reference) (order : OrderWalk)
    (row : Option (List Reference)) (aggregates : Option (Entries Aggregate))
    (groups? : Option Grouping) : NodeReferences where
  rows := row.map fun row => row ++ order.keys ++ (order.joins ++ conditions ++ order.keys)
  aggregates := aggregates.map fun entries =>
    if entries.isEmpty then []
    else argumentReferences { own with storage := none } entries ++
      ⟨own, none⟩ :: (order.joins ++ conditions ++ order.keys)
  groups := groups?.map fun grouping =>
    dimensionReferences own grouping.dimensions ++ argumentReferences own grouping.aggregates ++
      conditions ++ dimensionReferences own grouping.dimensions

mutual

/-- The references of a node with so many clauses around it, given the item of its parent. -/
def nodeReferences (context : Context) (depth : Nat) (collection : String)
    (parent : Option (Relationship × Item)) : Query → Option NodeReferences
  | ⟨fields, aggregates, _, _, orderBy, filter, groups?⟩ => do
    let storage ← context.schema.storage? collection
    let own : Item := ⟨depth, 0, some storage⟩
    let filtered ← optionalReferences context (depth + 1) own filter
    let order ← OrderWalk.order context depth own orderBy
    let row ← rowReferences context (depth + 1) own fields
    return partReferences own (parentReferences own parent ++ filtered) order row aggregates groups?

/-- The references of an output row over an item. -/
def rowReferences (context : Context) (depth : Nat) (own : Item) :
    Option (List (String × Field)) → Option (Option (List Reference))
  | none => some none
  | some fields => do return some (← fieldsReferences context depth own fields)

def fieldsReferences (context : Context) (depth : Nat) (own : Item) :
    List (String × Field) → Option (List Reference)
  | [] => some []
  | (_, field) :: fields => do
    let references ← fieldReferences context depth own field
    return references ++ (← fieldsReferences context depth own fields)

/-- A column is read from the item itself, and a nested node has the item as its parent. -/
def fieldReferences (context : Context) (depth : Nat) (own : Item) :
    Field → Option (List Reference)
  | .column name => some [⟨own, some name⟩]
  | .relationship name query => do
    let relationship ← Entries.get? name context.relationships
    return (← nodeReferences context depth relationship.target (some (relationship, own)) query).all

end

/-! ## References of selects -/

section Selects

variable {visible : Visible}

theorem memberReferences_eq (members : List (String × Expr)) :
    memberReferences visible members =
      members.flatMap fun member => member.2.references visible := by
  induction members with
  | nil => rfl
  | cons member members ih => rw [memberReferences, ih, List.flatMap_cons]

theorem itemReferences_eq (items : List Expr) :
    itemReferences visible items = items.flatMap (Expr.references visible) := by
  induction items with
  | nil => rfl
  | cons item items ih => rw [itemReferences, ih, List.flatMap_cons]

theorem outputReferences_eq (outputs : List (Expr × Option String)) :
    outputReferences visible outputs =
      outputs.flatMap fun output => output.1.references visible := by
  induction outputs with
  | nil => rfl
  | cons output outputs ih => rw [outputReferences, ih, List.flatMap_cons]

theorem sortOutput_references (i : Nat) (key : SortKey) :
    (sortOutput i key).1.references visible = key.references visible := by
  rw [sortOutput, SortKey.references]
  cases key.column <;> rfl

theorem outerKeys_references (keys : List SortKey) :
    (outerKeys keys).flatMap (SortKey.references visible) = [] :=
  flatMap_numbered_nil (fun _ _ => rfl) keys

/-- What can be seen inside the FROM clause of a node. -/
def Rows.inside (rows : Rows) (visible : Visible) : Visible :=
  visible.enter (fromClause rows.table rows.ordering.joins)

def Rows.keyReferences (rows : Rows) (visible : Visible) : List (Option Reference) :=
  rows.ordering.keys.flatMap (SortKey.references (rows.inside visible))

/-- The references of the FROM clause of a node and of the clauses behind it. -/
def Rows.references (rows : Rows) (visible : Visible) : List (Option Reference) :=
  joinReferences visible [rows.table.entry] rows.ordering.joins ++
    referencesAll (rows.inside visible) rows.conditions ++ rows.keyReferences visible

theorem rowsSelect_references (rows : Rows) (row : Expr) :
    (rowsSelect rows row).references visible =
      row.references (rows.inside visible) ++ rows.keyReferences visible ++
        rows.references visible := by
  have hsort : (rows.ordering.keys.mapIdx sortOutput).flatMap
      (fun output => output.1.references (rows.inside visible)) = rows.keyReferences visible :=
    flatMap_numbered
      (fun output : Expr × Option String => output.1.references (rows.inside visible))
      (SortKey.references (rows.inside visible)) sortOutput_references rows.ordering.keys
  have houter : (outerKeys rows.ordering.keys).flatMap
      (SortKey.references (visible.enter [("rows", none)])) = [] :=
    outerKeys_references rows.ordering.keys
  rw [Rows.inside] at hsort
  simp only [rowsSelect, Select.single, Select.references, Source.references, Source.within,
    outputReferences_eq, List.flatMap_cons, hsort, Expr.references, arrayOf, emptyArray,
    memberReferences, itemReferences, houter, referencesAll, List.flatMap_nil, List.append_nil,
    List.nil_append, Rows.references, Rows.keyReferences, Rows.inside, List.append_assoc]

theorem aggregatesSelect_references (rows : Rows) (outputs : List (String × Summary)) :
    (aggregatesSelect rows outputs).references visible =
      if outputs.isEmpty then []
      else (outputs.flatMap fun output =>
          output.2.references (visible.enter [(subqueryAlias, none)])) ++
        ((rows.inside visible).row rows.table.tableAlias :: rows.references visible) := by
  rw [aggregatesSelect]
  split
  · rfl
  · simp only [Select.single, Select.references, Source.references, Source.within,
      outputReferences_eq, memberReferences_eq, List.flatMap_cons, Expr.references,
      itemReferences, referencesAll, List.flatMap_nil, List.append_nil, List.flatMap_map,
      Rows.references, Rows.keyReferences, Rows.inside, List.append_assoc, List.cons_append,
      List.nil_append]

theorem outputReferences_orCount (named : List (Expr × Option String)) :
    outputReferences visible
        (if named.isEmpty then [(.summary .rows, some "n")] else named) =
      outputReferences visible named := by
  cases named <;> rfl

theorem outputReferences_grouped (dimensions : List Expr) (outputs : List (String × Summary)) :
    outputReferences visible
        (dimensions.mapIdx (fun i value => (value, some (dimensionName i))) ++
          outputs.mapIdx (fun i output => (.summary output.2, some (aggregateName i)))) =
      itemReferences visible dimensions ++
        outputs.flatMap fun output => output.2.references visible := by
  rw [outputReferences_eq, itemReferences_eq, List.flatMap_append]
  congr 1
  · refine flatMap_numbered (fun output : Expr × Option String => output.1.references visible)
      (Expr.references visible) ?_ dimensions
    intro i value
    rfl
  · refine flatMap_numbered (fun output : Expr × Option String => output.1.references visible)
      (fun output => output.2.references visible) ?_ outputs
    intro i output
    rfl

theorem groupsSelect_references (table : Table) (conditions : List Condition) (page : Sql.Page)
    (dimensions : List Expr) (outputs : List (String × Summary)) :
    (groupsSelect table conditions page dimensions outputs).references visible =
      itemReferences (visible.enter [table.entry]) dimensions ++
        (outputs.flatMap fun output =>
          output.2.references (visible.enter [table.entry])) ++
        referencesAll (visible.enter [table.entry]) conditions ++
        itemReferences (visible.enter [table.entry]) dimensions := by
  have horder : ∀ inside : Visible, (dimensions.mapIdx fun i _ =>
      (⟨.output (dimensionName i), .plainColumn, none⟩ : SortKey)).flatMap
        (SortKey.references inside) = [] :=
    fun _ => flatMap_numbered_nil (fun _ _ => rfl) dimensions
  have hdimensions : ∀ inside : Visible, (dimensions.mapIdx fun i _ =>
      Expr.output (dimensionName i)).flatMap (Expr.references inside) = [] :=
    fun _ => flatMap_numbered_nil (fun _ _ => rfl) dimensions
  have haggregates : ∀ inside : Visible, (outputs.mapIdx fun i output =>
      (output.1, Expr.output (aggregateName i))).flatMap
        (fun member => member.2.references inside) = [] :=
    fun _ => flatMap_numbered_nil (fun _ _ => rfl) outputs
  simp only [groupsSelect, arrayOf, emptyArray, Select.single, Select.references,
    Source.references, Source.within, outputReferences_orCount, outputReferences_grouped,
    outputReferences, Expr.references, memberReferences_eq, itemReferences_eq, List.flatMap_cons,
    List.flatMap_nil, horder, hdimensions, haggregates, joinReferences, referencesAll, fromClause,
    List.map_nil, List.append_nil, List.nil_append]

theorem childExpr_references (child : Node) :
    (childExpr child).references visible =
      ([child.rows, child.aggregates, child.groups].filterMap id).flatMap
        (Select.references visible) := by
  obtain ⟨rows, aggregates, groups⟩ := child
  cases rows <;> cases aggregates <;> cases groups <;>
    simp [childExpr, Expr.references, emptyArray, itemReferences, Select.single, Select.references,
      outputReferences, memberReferences, Source.within, Source.references, referencesAll]

end Selects

/-! ## Parts of a node -/

section Parts

variable {context : Context} {scope : Scope} {visible : Visible} {own : Item}

theorem summary_references {tableAlias : String} (hown : visible.item? tableAlias = some own)
    {aggregate : Aggregate} {value : Summary} (h : summary tableAlias aggregate = .ok value) :
    value.references visible = (argumentReference own aggregate).map some := by
  cases aggregate with
  | starCount =>
    obtain rfl := pure_eq_ok.mp h
    rfl
  | columnCount column distinct =>
    obtain rfl := pure_eq_ok.mp h
    rw [Summary.references, Visible.column_of_item? hown]
    rfl
  | singleColumn column name =>
    rw [summary] at h
    split at h
    · obtain rfl := pure_eq_ok.mp h
      rw [Summary.references, Visible.column_of_item? hown]
      rfl
    · exact absurd h throw_ne_ok

theorem summaries_references {entries : Entries Aggregate} {tableAlias : String}
    (hown : visible.item? tableAlias = some own) {outputs : List (String × Summary)}
    (h : summaries entries tableAlias = .ok outputs) :
    (outputs.flatMap fun output => output.2.references visible) =
        (argumentReferences own entries).map some ∧ outputs.isEmpty = entries.isEmpty := by
  induction entries generalizing outputs with
  | nil =>
    obtain rfl := pure_eq_ok.mp h
    exact ⟨rfl, rfl⟩
  | cons entry entries ih =>
    obtain ⟨value, hvalue, others, hothers, rfl⟩ := summaries_cons_eq_ok.mp h
    refine ⟨?_, rfl⟩
    rw [List.flatMap_cons, (ih hothers).1, summary_references hown hvalue, argumentReferences,
      argumentReferences, List.flatMap_cons, List.map_append]

theorem dimensions_references (hown : visible.item? scope.tableAlias = some own)
    {dimensions : List Dimension} {values : List Expr}
    (h : dimensions.mapM (dimension context scope) = .ok values) :
    itemReferences visible values = (dimensionReferences own dimensions).map some := by
  induction dimensions generalizing values with
  | nil =>
    obtain rfl := pure_eq_ok.mp h
    rfl
  | cons entry dimensions ih =>
    obtain ⟨value, hvalue, others, hothers, rfl⟩ := mapM_cons_eq_ok.mp h
    obtain ⟨name, rfl, type, -, strategy, -, rfl⟩ := dimension_eq_ok.mp hvalue
    rw [itemReferences, ih hothers, Expr.references, Scope.column, Visible.column_of_item? hown]
    rfl

/-- The parent of a node and its item, which is found under an alias shorter than the node's. -/
inductive Leads (visible : Visible) (tableAlias : String) :
    Option Parent → Option (Relationship × Item) → Prop where
  | root : Leads visible tableAlias none none
  | field {relationship : Relationship} {parentAlias : String} {item : Item} :
      visible.item? parentAlias = some item → parentAlias.length < tableAlias.length →
      Leads visible tableAlias (some ⟨relationship, parentAlias⟩) (some (relationship, item))

/-- Every alias of a clause is at least as long as the alias of its table. -/
theorem Tracks.item?_of_lt {table : Table} {ordering : Ordering} {walk : OrderWalk}
    (h : Tracks visible table ordering walk) {tableAlias : String}
    (hlt : tableAlias.length < table.tableAlias.length) :
    (visible.enter (fromClause table ordering.joins)).item? tableAlias =
      visible.item? tableAlias := by
  apply Visible.item?_enter_of_notMem
  rw [h.items, Entries.names, List.map_map, List.mem_map]
  rintro ⟨entry, -, rfl⟩
  simp only [Function.comp_apply, String.length_append] at hlt
  omega

/-- The conditions of a node, in the clause of its rows or of its groups. -/
theorem nodeConditions_references {table : Table} {ordering : Ordering} {walk : OrderWalk}
    (ht : Tracks visible table ordering walk) (hscope : scope.tableAlias = table.tableAlias)
    {parent : Option Parent} {known : Option (Relationship × Item)}
    (hparent : Leads visible scope.tableAlias parent known) {filter : Option Expression}
    {conditions : List Condition}
    (h : nodeConditions context scope parent filter = .ok conditions) :
    ∃ filtered, optionalReferences context (visible.depth + 1)
        ⟨visible.depth, 0, some table.storage⟩ filter = some filtered ∧
      referencesAll (visible.enter (fromClause table ordering.joins)) conditions =
        (parentReferences ⟨visible.depth, 0, some table.storage⟩ known ++ filtered).map some := by
  have hown := item?_fromClause (get?_items_self visible.depth table ordering.joins)
  rw [← hscope] at hown
  have hmapping : referencesAll (visible.enter (fromClause table ordering.joins))
      (parentConditions scope parent) =
        (parentReferences ⟨visible.depth, 0, some table.storage⟩ known).map some := by
    cases hparent with
    | root => rfl
    | field hitem hlt =>
      rw [hscope] at hlt
      exact joinConditions_references ((ht.item?_of_lt hlt).trans hitem) hown _
  cases filter with
  | none =>
    rw [nodeConditions_none] at h
    obtain rfl := Except.ok.inj h
    refine ⟨[], rfl, ?_⟩
    rw [hmapping, List.append_nil]
  | some filter =>
    rw [nodeConditions_some] at h
    obtain ⟨condition, hfilter, h⟩ := bind_eq_ok.mp h
    obtain rfl := pure_eq_ok.mp h
    obtain ⟨filtered, hfiltered, hfound⟩ :=
      predicate_references context scope filter hfilter _ _ hown
    refine ⟨filtered, hfiltered, ?_⟩
    have hgroup : referencesAll (visible.enter (fromClause table ordering.joins))
        [condition.group] = filtered.map some := by
      rw [referencesAll, referencesAll, Condition.references, hfound, List.append_nil]
    rw [referencesAll_append, hmapping, hgroup, List.map_append]

end Parts

theorem AliasPath.tableAlias_child {path : AliasPath} (h : path.segments ≠ [])
    (collection : String) :
    (path.child collection).tableAlias = path.tableAlias ++ "_" ++ collection := by
  rw [tableAlias, child, String.intercalate_append_of_ne_nil h (List.cons_ne_nil _ _),
    String.intercalate_singleton]
  rfl

/-! ## Nodes -/

/-- The selects of a node have the references that are meant, and all of them are found. -/
structure Node.Finds (node : Node) (visible : Visible) (references : NodeReferences) : Prop where
  rows : node.rows.map (Select.references visible) = references.rows.map (List.map some)
  aggregates :
    node.aggregates.map (Select.references visible) = references.aggregates.map (List.map some)
  groups : node.groups.map (Select.references visible) = references.groups.map (List.map some)

theorem filterMap_map_flatten {α γ : Type} (f : α → List γ) (values : List (Option α)) :
    ((values.map (Option.map f)).filterMap id).flatten = (values.filterMap id).flatMap f := by
  rw [List.filterMap_map, List.flatMap_def, List.map_filterMap]
  rfl

theorem Node.Finds.all {node : Node} {visible : Visible} {references : NodeReferences}
    (h : node.Finds visible references) :
    (childExpr node).references visible = references.all.map some := by
  have hparts : [node.rows, node.aggregates, node.groups].map
        (Option.map (Select.references visible)) =
      [references.rows, references.aggregates, references.groups].map
        (Option.map (List.map some)) := by
    simp only [List.map_cons, List.map_nil, h.rows, h.aggregates, h.groups]
  rw [childExpr_references, ← filterMap_map_flatten, hparts, filterMap_map_flatten,
    NodeReferences.all, List.map_flatten, List.flatMap_def]

section Assembly

variable {context : Context} {visible : Visible} {rows : Rows} {walk : OrderWalk}
  {conditions : List Reference}

theorem rows_found {row : Option Expr} {references : Option (List Reference)}
    (hrow : row.map (Expr.references (rows.inside visible)) = references.map (List.map some))
    (hkeys : rows.keyReferences visible = walk.keys.map some)
    (hrows : rows.references visible = (walk.joins ++ conditions ++ walk.keys).map some) :
    (row.map (rowsSelect rows)).map (Select.references visible) =
      (references.map fun row =>
        row ++ walk.keys ++ (walk.joins ++ conditions ++ walk.keys)).map (List.map some) := by
  cases row with
  | none =>
    cases references with
    | none => rfl
    | some references => cases hrow
  | some row =>
    cases references with
    | none => cases hrow
    | some references =>
      have hfound : row.references (rows.inside visible) = references.map some :=
        Option.some.inj hrow
      simp only [Option.map_some, rowsSelect_references, hfound, hkeys, hrows, List.map_append]

theorem aggregates_found {aggregates : Option (Entries Aggregate)} {part : Option Select}
    (h : aggregatesPart rows aggregates = .ok part)
    {own : Item} (hdepth : own.depth = visible.depth) (hindex : own.index = 0)
    (hrow : (rows.inside visible).row rows.table.tableAlias = some ⟨own, none⟩)
    (hrows : rows.references visible = (walk.joins ++ conditions ++ walk.keys).map some) :
    part.map (Select.references visible) = (aggregates.map fun entries =>
      if entries.isEmpty then []
      else argumentReferences { own with storage := none } entries ++
        ⟨own, none⟩ :: (walk.joins ++ conditions ++ walk.keys)).map (List.map some) := by
  obtain ⟨rfl, rfl⟩ | ⟨entries, outputs, rfl, houtputs, rfl⟩ := aggregatesPart_eq_ok.mp h
  · rfl
  · have hderived : (visible.enter [(subqueryAlias, none)]).item? subqueryAlias =
        some { own with storage := none } := by
      rw [Visible.item?_enter_single, hdepth, hindex]
    obtain ⟨harguments, hempty⟩ := summaries_references hderived houtputs
    simp only [Option.map_some, aggregatesSelect_references, hempty, harguments, hrow, hrows]
    split
    · rfl
    · simp only [List.map_append, List.map_cons]

theorem groups_found {groups? : Option Grouping} {part : Option Select} {scope : Scope}
    {table : Table} {nodeConditions : List Condition}
    (h : groups?.mapM (groups context scope table nodeConditions) = .ok part) {own : Item}
    (hown : (visible.enter [table.entry]).item? scope.tableAlias = some own)
    (hconditions : referencesAll (visible.enter [table.entry]) nodeConditions =
      conditions.map some) :
    part.map (Select.references visible) = (groups?.map fun grouping =>
      dimensionReferences own grouping.dimensions ++ argumentReferences own grouping.aggregates ++
        conditions ++ dimensionReferences own grouping.dimensions).map (List.map some) := by
  obtain ⟨rfl, rfl⟩ | ⟨grouping, dimensions, outputs, rfl, hdimensions, houtputs, rfl⟩ :=
    groupsPart_eq_ok.mp h
  · rfl
  · obtain ⟨harguments, -⟩ := summaries_references hown houtputs
    simp only [Option.map_some, groupsSelect_references, dimensions_references hown hdimensions,
      harguments, hconditions, List.map_append]

end Assembly

mutual

/-- The references of a compiled node find the items that they are meant for. -/
theorem node_references (context : Context) : (collection : String) → (path : AliasPath) →
    (parent : Option Parent) → (query : Query) → {result : Node} →
    node context collection path parent query = .ok result → path.segments ≠ [] →
    (visible : Visible) → (known : Option (Relationship × Item)) →
    Leads visible path.tableAlias parent known →
      ∃ references, nodeReferences context visible.depth collection known query =
        some references ∧ result.Finds visible references
  | collection, path, parent, ⟨fields, aggregates, limit, offset, orderBy, filter, groups?⟩, _,
      h, hpath, visible, known, hparent => by
    obtain ⟨-, storage, hstorage, conditions, hconditions, order, horder, row, hrow, aggregated,
      haggregates, grouped, hgroups, rfl⟩ := node_eq_ok.mp h
    obtain ⟨walk, hwalk, htracks⟩ := ordering_tracks horder visible storage
    obtain ⟨filtered, hfiltered, hfound⟩ :=
      nodeConditions_references htracks rfl hparent hconditions
    have hown := item?_fromClause
      (get?_items_self visible.depth ⟨storage, path.tableAlias⟩ order.joins)
    obtain ⟨references, hreferences, hrowFound⟩ := rowObject_references context
      ⟨collection, path.tableAlias⟩ path fields hrow rfl hpath _ _ hown
    obtain ⟨again, hagain, hgrouped⟩ := nodeConditions_references
      (Tracks.start visible ⟨storage, path.tableAlias⟩) rfl hparent hconditions
    rw [Option.some.inj (hagain.symm.trans hfiltered)] at hgrouped
    refine ⟨partReferences ⟨visible.depth, 0, some storage⟩
      (parentReferences ⟨visible.depth, 0, some storage⟩ known ++ filtered) walk references
      aggregates groups?, ?_, ?_⟩
    · rw [nodeReferences]
      rw [Visible.enter] at hreferences
      simp only [hstorage, hfiltered, hwalk, hreferences, Option.bind_eq_bind, Option.bind_some]
      rfl
    · have hkeys := htracks.keys order.joins List.prefix_rfl
      have hrow : (visible.enter (fromClause ⟨storage, path.tableAlias⟩ order.joins)).row
          path.tableAlias = some ⟨⟨visible.depth, 0, some storage⟩, none⟩ := by
        rw [Visible.row, hown]
        rfl
      have hrows : Rows.references ⟨⟨storage, path.tableAlias⟩, conditions, order,
          ⟨limit, offset⟩⟩ visible = (walk.joins ++ (parentReferences
            ⟨visible.depth, 0, some storage⟩ known ++ filtered) ++ walk.keys).map some := by
        rw [List.map_append, List.map_append, ← htracks.joins, ← hfound, ← hkeys]
        rfl
      exact ⟨rows_found hrowFound hkeys hrows, aggregates_found haggregates rfl rfl hrow hrows,
        groups_found hgroups (Visible.item?_enter_single _ _) hgrouped⟩

theorem rowObject_references (context : Context) : (scope : Scope) → (path : AliasPath) →
    (fields : Option (List (String × Field))) → {row : Option Expr} →
    rowObject context scope path fields = .ok row → scope.tableAlias = path.tableAlias →
    path.segments ≠ [] → (visible : Visible) → (own : Item) →
    visible.item? scope.tableAlias = some own →
      ∃ references, rowReferences context visible.depth own fields = some references ∧
        row.map (Expr.references visible) = references.map (List.map some)
  | scope, path, none, _, h, _, _, visible, own, _ => by
    obtain rfl := rowObject_none_eq_ok.mp h
    exact ⟨none, rfl, rfl⟩
  | scope, path, some fields, _, h, hscope, hpath, visible, own, hown => by
    obtain ⟨members, hmembers, rfl⟩ := rowObject_some_eq_ok.mp h
    obtain ⟨references, hreferences, hfound⟩ :=
      fieldMembers_references context scope path fields hmembers hscope hpath visible own hown
    refine ⟨some references, ?_, ?_⟩
    · rw [rowReferences, hreferences]
      rfl
    · rw [Option.map_some, Option.map_some, Expr.references, hfound]

theorem fieldMembers_references (context : Context) : (scope : Scope) → (path : AliasPath) →
    (fields : List (String × Field)) → {members : List (String × Expr)} →
    fieldMembers context scope path fields = .ok members → scope.tableAlias = path.tableAlias →
    path.segments ≠ [] → (visible : Visible) → (own : Item) →
    visible.item? scope.tableAlias = some own →
      ∃ references, fieldsReferences context visible.depth own fields = some references ∧
        memberReferences visible members = references.map some
  | scope, path, [], _, h, _, _, visible, own, _ => by
    obtain rfl := fieldMembers_nil_eq_ok.mp h
    exact ⟨[], rfl, rfl⟩
  | scope, path, (name, field) :: fields, _, h, hscope, hpath, visible, own, hown => by
    obtain ⟨value, hvalue, members, hmembers, rfl⟩ := fieldMembers_cons_eq_ok.mp h
    obtain ⟨first, hfirst, hfound⟩ :=
      fieldExpr_references context scope path field hvalue hscope hpath visible own hown
    obtain ⟨others, hothers, hall⟩ :=
      fieldMembers_references context scope path fields hmembers hscope hpath visible own hown
    refine ⟨first ++ others, ?_, ?_⟩
    · rw [fieldsReferences, hfirst, hothers]
      rfl
    · rw [memberReferences, hfound, hall, List.map_append]

theorem fieldExpr_references (context : Context) : (scope : Scope) → (path : AliasPath) →
    (field : Field) → {value : Expr} → fieldExpr context scope path field = .ok value →
    scope.tableAlias = path.tableAlias → path.segments ≠ [] → (visible : Visible) →
    (own : Item) → visible.item? scope.tableAlias = some own →
      ∃ references, fieldReferences context visible.depth own field = some references ∧
        value.references visible = references.map some
  | scope, path, .column name, _, h, _, _, visible, own, hown => by
    obtain ⟨type, -, strategy, -, rfl⟩ := fieldExpr_column_eq_ok.mp h
    refine ⟨[⟨own, some name⟩], by rw [fieldReferences], ?_⟩
    rw [Expr.references, Scope.column, Visible.column_of_item? hown]
    rfl
  | scope, path, .relationship name query, _, h, hscope, hpath, visible, own, hown => by
    obtain ⟨relationship, hrelationship, child, hchild, rfl⟩ := fieldExpr_relationship_eq_ok.mp h
    have hlonger :
        scope.tableAlias.length < (path.child relationship.target).tableAlias.length := by
      have hone : "_".length = 1 := rfl
      rw [AliasPath.tableAlias_child hpath, String.length_append, String.length_append, hscope]
      omega
    obtain ⟨references, hreferences, hfinds⟩ := node_references context relationship.target
      (path.child relationship.target) _ query hchild (List.concat_ne_nil _ _) visible _
      (.field hown hlonger)
    refine ⟨references.all, ?_, hfinds.all⟩
    rw [fieldReferences, hrelationship]
    simp only [Option.bind_eq_bind, Option.bind_some, hreferences]
    rfl

end

end NestedSql.Compile
