import NestedSql.Proofs.Documents.Meaning
import NestedSql.Proofs.Sorting.Groups
import NestedSql.Proofs.Text.Clauses
import NestedSql.Wire.Writer

/-!
# Columns of groups

The select inside gives the dimensions and the aggregates of a group under numbered names, and the
document outside is put together by these names. Every number leads back to the value that it was
given to, so the dimensions stand in the document in the order of the request, and each aggregate
stands under its own name.
-/

namespace NestedSql.Compile

open Sql (Cell Condition Expr ItemsGive MembersGive Record Select Summary Table Valuation arraySql
  clause conditionClause ident lookup_give objectSql outputSql outputSql_some)

variable {context : Context} {scope : Scope}

/-! ## Specification -/

/-- The columns of the select inside: dimensions and aggregates, numbered apart. A row is counted
where there are neither, so that all rows fall into one group. -/
def groupColumns (dimensions : List Expr) (outputs : List (String × Summary)) : List String :=
  if dimensions.isEmpty && outputs.isEmpty then ["COUNT(*) AS \"n\""]
  else
    dimensions.mapIdx (fun i value => value.render.sql ++ " AS " ++ ident (dimensionName i)) ++
      outputs.mapIdx fun i output => output.2.sql ++ " AS " ++ ident (aggregateName i)

/-- The names of the dimensions inside. -/
def dimensionNames (dimensions : List Expr) : List String :=
  dimensions.mapIdx fun i _ => ident (dimensionName i)

/-- The requested names of the aggregates with their names inside. -/
def aggregateNames (outputs : List (String × Summary)) : List (String × String) :=
  outputs.mapIdx fun i output => (output.1, ident (aggregateName i))

/-- The group that a row of the select inside stands for, its values in the order of the request. -/
def valuedGroup {Row : Type} (valuation : Valuation Row Cell) (row : Row) (dimensions : List Expr)
    (outputs : List (String × Summary)) : Group where
  dimensions := dimensions.map fun value => (valuation.value value row).getD .null
  aggregates := outputs.map fun output =>
    (output.1, (valuation.value (.summary output.2) row).getD .null)

/-- The statement gives the dimensions and aggregates of a grouping as columns, groups by the
dimensions, and puts every value of a group in the place that it was requested for. -/
structure AlignsGroups (context : Context) (scope : Scope) (grouping : Grouping)
    (statement : GroupsStatement) (dimensions : List Expr) (outputs : List (String × Summary)) :
    Prop where
  placed : List.Forall₂ (fun entry value => ∃ name, entry = .column name [] ∧
    Places context (.column scope name) value) grouping.dimensions dimensions
  summarized : List.Forall₂ (fun entry output => output.1 = entry.1 ∧
    Places context (.aggregate scope entry.2) (.summary output.2)) grouping.aggregates outputs
  names : (statement.inner.outputs.map Prod.snd).Nodup
  grouped : statement.inner.groupBy = dimensions
  inner : statement.inner.render.sql =
    "SELECT " ++ ", ".intercalate (groupColumns dimensions outputs) ++
      statement.inner.source.render.sql ++
      (conditionClause " WHERE " statement.inner.conditions).sql ++
      clause " GROUP BY " (dimensions.map fun value => value.render.sql) ++
      clause " ORDER BY " (dimensionNames dimensions) ++ statement.inner.page.sql
  ungrouped : clause " GROUP BY " (dimensions.map fun value => value.render.sql) = "" ↔
    grouping.dimensions = []
  group : statement.group.render.sql =
    objectSql [("dimensions", arraySql (dimensionNames dimensions)),
      ("aggregates", objectSql (aggregateNames outputs))]
  select : statement.select.render.sql =
    "SELECT COALESCE(TO_JSON(LIST(" ++ statement.group.render.sql ++
      clause " ORDER BY " (dimensionNames dimensions) ++ ")), JSON('[]')) FROM (" ++
      statement.inner.render.sql ++ ") AS \"groups\""
  document : ∀ {Row : Type} (valuation : Valuation Row Cell) (row : Row) (cell : Cell),
    statement.group.Gives (.row (statement.inner.give valuation row)) cell ↔
      cell = some (valuedGroup valuation row dimensions outputs).json

/-! ## Requested values -/

theorem summaries_place {entries : Entries Aggregate} {outputs : List (String × Summary)}
    (h : summaries entries scope.tableAlias = .ok outputs) :
    List.Forall₂ (fun entry output => output.1 = entry.1 ∧
      Places context (.aggregate scope entry.2) (.summary output.2)) entries outputs := by
  induction entries generalizing outputs with
  | nil =>
    obtain rfl := pure_eq_ok.mp h
    exact .nil
  | cons entry entries ih =>
    obtain ⟨value, hvalue, others, hothers, rfl⟩ := summaries_cons_eq_ok.mp h
    exact .cons ⟨rfl, .aggregate hvalue⟩ (ih hothers)

/-! ## Values by numbered names -/

theorem map_numbered {α β γ : Type} (f : β → γ) (number : Nat → α → β) (values : List α) :
    (values.mapIdx number).map f = values.mapIdx fun i value => f (number i value) :=
  List.ext_getElem (by simp) fun i _ _ => by simp

section Numbered

variable {α : Type} {record : Record} (found : α → Cell)

/-- Items that read numbered columns are worth what stands in them, one by one. -/
theorem itemsGive_numbered {number : Nat → String} {values : List α}
    (h : ∀ i value, values[i]? = some value → record.lookup (some (number i)) = some (found value))
    {items : List Json} :
    ItemsGive (values.mapIdx fun i _ => .output (number i)) (.row record) items ↔
      items = values.map fun value => (found value).getD .null := by
  induction values generalizing number items with
  | nil => rfl
  | cons value values ih =>
    -- the numbers of the later values are one higher than in the list that they stand in
    have hfirst : record.lookup (some (number 0)) = some (found value) := h 0 value rfl
    have hrest := @ih (fun i => number (i + 1)) fun i => h (i + 1)
    rw [List.mapIdx_cons, List.map_cons, ItemsGive]
    simp only [Expr.Gives, hfirst, hrest, Option.some.injEq]
    simp

/-- Members that read numbered columns keep their names and are worth what stands in them. -/
theorem membersGive_numbered {number : Nat → String} {entries : List (String × α)}
    (h : ∀ i entry, entries[i]? = some entry →
      record.lookup (some (number i)) = some (found entry.2))
    {members : List (String × Json)} :
    MembersGive (entries.mapIdx fun i entry => (entry.1, .output (number i))) (.row record)
        members ↔
      members = entries.map fun entry => (entry.1, (found entry.2).getD .null) := by
  induction entries generalizing number members with
  | nil => rfl
  | cons entry entries ih =>
    have hfirst : record.lookup (some (number 0)) = some (found entry.2) := h 0 entry rfl
    have hrest := @ih (fun i => number (i + 1)) fun i => h (i + 1)
    rw [List.mapIdx_cons, List.map_cons, MembersGive]
    simp only [Expr.Gives, hfirst, hrest, Option.some.injEq]
    simp

end Numbered

section Statement

variable (table : Table) (conditions : List Condition) (page : Sql.Page) (dimensions : List Expr)
  (outputs : List (String × Summary))

/-- The document of a group holds its dimensions in order and each aggregate under its name. -/
theorem groupsStatement_gives {Row : Type} (valuation : Valuation Row Cell) (row : Row)
    (cell : Cell) :
    (groupsStatement table conditions page dimensions outputs).group.Gives
        (.row ((groupsStatement table conditions page dimensions outputs).inner.give valuation
          row)) cell ↔
      cell = some (valuedGroup valuation row dimensions outputs).json := by
  generalize hrecord : (groupsStatement table conditions page dimensions outputs).inner.give
    valuation row = record
  have hdimensions : ∀ i value, dimensions[i]? = some value →
      record.lookup (some (dimensionName i)) = some (valuation.value value row) := by
    intro i value hvalue
    rw [← hrecord, lookup_give,
      output?_dimensionName table conditions page dimensions outputs hvalue]
    rfl
  have haggregates : ∀ i output, outputs[i]? = some output →
      record.lookup (some (aggregateName i)) =
        some (valuation.value (.summary output.2) row) := by
    intro i output houtput
    rw [← hrecord, lookup_give,
      output?_aggregateName table conditions page dimensions outputs houtput]
    rfl
  simp only [groupsStatement, Expr.Gives, MembersGive, itemsGive_numbered _ hdimensions,
    membersGive_numbered (fun output => valuation.value (.summary output) row) haggregates,
    valuedGroup, Group.json]
  simp

theorem columns_groupsStatement :
    (groupsStatement table conditions page dimensions outputs).inner.outputs.map outputSql =
      groupColumns dimensions outputs := by
  by_cases hempty : dimensions = [] ∧ outputs = []
  · obtain ⟨rfl, rfl⟩ := hempty
    rfl
  · have hnamed : ¬(dimensions.mapIdx (fun i value => (value, some (dimensionName i))) ++
        outputs.mapIdx (fun i output =>
          (Expr.summary output.2, some (aggregateName i)))).isEmpty = true := by
      simpa using hempty
    have hlists : ¬(dimensions.isEmpty && outputs.isEmpty) = true := by simpa using hempty
    rw [groupsStatement, groupColumns, if_neg hlists]
    dsimp only
    rw [if_neg hnamed, List.map_append, map_numbered, map_numbered]
    simp only [outputSql_some]
    rfl

theorem keys_groupsStatement :
    (groupsStatement table conditions page dimensions outputs).listed.map Sql.SortKey.sql =
      dimensionNames dimensions := by
  have hkey : ∀ i, Sql.SortKey.sql ⟨.output (dimensionName i), .plainColumn, none⟩ =
      ident (dimensionName i) := fun _ => String.append_empty
  rw [groupsStatement, map_numbered, dimensionNames]
  simp only [hkey]

theorem sql_groupsStatement_group :
    (groupsStatement table conditions page dimensions outputs).group.render.sql =
      objectSql [("dimensions", arraySql (dimensionNames dimensions)),
        ("aggregates", objectSql (aggregateNames outputs))] := by
  rw [groupsStatement, Expr.sql_object]
  simp only [List.map_cons, List.map_nil, Expr.sql_array, Expr.sql_object, map_numbered]
  rfl

end Statement

/-- A select that collects documents, as text. -/
theorem GroupsStatement.sql_select (statement : GroupsStatement) :
    statement.select.render.sql =
      "SELECT COALESCE(TO_JSON(LIST(" ++ statement.group.render.sql ++
        clause " ORDER BY " (statement.listed.map Sql.SortKey.sql) ++
        ")), JSON('[]')) FROM (" ++ statement.inner.render.sql ++ ") AS \"groups\"" := by
  have hopening : "SELECT COALESCE(TO_JSON(LIST(" =
      "SELECT " ++ ("COALESCE(" ++ "TO_JSON(LIST(") := rfl
  have hmiddle : ")), JSON('[]')) FROM (" = "))" ++ (", " ++ ("JSON('[]')" ++ (")" ++ " FROM ("))) :=
    rfl
  have hclosing : ") AS \"groups\"" = ") AS " ++ ident "groups" := rfl
  have hoptional : (conditionClause " WHERE " []).sql = "" ∧ clause " GROUP BY " [] = "" ∧
      clause " ORDER BY " [] = "" ∧ Sql.Page.all.sql = "" := by decide
  rw [Select.sql_render, hopening, hmiddle, hclosing]
  simp only [GroupsStatement.select, Select.single, outputSql, Sql.namedOutput, arrayOf, emptyArray,
    Expr.render, Sql.Source.render, Sql.orderClause_eq, Statement.sql_append, Statement.sql_raw, List.map_cons,
    List.map_nil, String.intercalate_singleton, hoptional, String.append_empty,
    String.append_assoc]

/-! ## Groupings -/

/-- What a grouping compiles to keeps its columns in line with its document. -/
theorem groups_aligned {table : Table} {conditions : List Condition} {grouping : Grouping}
    {select : Select} (h : groups context scope table conditions grouping = .ok select) :
    ∃ statement dimensions outputs, select = statement.select ∧
      AlignsGroups context scope grouping statement dimensions outputs := by
  obtain ⟨dimensions, outputs, hdimensions, houtputs, rfl⟩ := groups_eq_ok.mp h
  have hplaced := dimensions_place hdimensions
  have horder := keys_groupsStatement table conditions ⟨grouping.limit, grouping.offset⟩
    dimensions outputs
  refine ⟨groupsStatement table conditions ⟨grouping.limit, grouping.offset⟩ dimensions outputs,
    dimensions, outputs, rfl, ?_⟩
  constructor
  case placed => exact hplaced
  case summarized => exact summaries_place houtputs
  case names => exact nodup_groupsStatement_names _ _ _ _ _
  case grouped => rfl
  case inner =>
    rw [Select.sql_render, columns_groupsStatement, ← horder]
    rfl
  case ungrouped =>
    rw [Sql.clause_eq_empty (by decide), List.map_eq_nil_iff]
    constructor
    · rintro rfl
      exact List.forall₂_nil_right_iff.mp hplaced
    · intro hnone
      rw [hnone] at hplaced
      exact List.forall₂_nil_left_iff.mp hplaced
  case group => exact sql_groupsStatement_group _ _ _ _ _
  case select => rw [GroupsStatement.sql_select, horder]
  case document => exact fun valuation row cell => groupsStatement_gives _ _ _ _ _ valuation row cell

/-- The columns of groups are in line with their documents, for every grouping that compiles. So it
is for the groupings of all levels of a compiled request, and no other select there has groups. -/
theorem group_columns_stay_aligned :
    (∀ (context : Context) (scope : Scope) (table : Table) (conditions : List Condition)
      (grouping : Grouping) (select : Select),
      groups context scope table conditions grouping = .ok select →
        ∃ statement dimensions outputs, select = statement.select ∧
          AlignsGroups context scope grouping statement dimensions outputs) ∧
    ∀ (schema : Schema) (request : Request) (bindings : VariableSet) (plan : Plan),
      request.compile schema bindings = .ok plan →
        ∃ result, root ⟨schema, request.relationships, bindings⟩ request.collection request.query =
            .ok result ∧ Plan.ofNode result = plan ∧
          (∀ (level : Level) grouping,
            request.level.Reaches ⟨schema, request.relationships, bindings⟩ level →
              level.query.groups = some grouping → ∃ statement dimensions outputs,
                statement.select ∈ result.derivations ∧
                  AlignsGroups ⟨schema, request.relationships, bindings⟩ level.scope grouping
                    statement dimensions outputs) ∧
          ∀ select ∈ result.derivations, ∀ inner, select.source = .derived inner "groups" →
            ∃ (level : Level) (grouping : Grouping) (statement : GroupsStatement)
              (dimensions : List Expr) (outputs : List (String × Summary)),
              request.level.Reaches ⟨schema, request.relationships, bindings⟩ level ∧
                level.query.groups = some grouping ∧ select = statement.select ∧
                  AlignsGroups ⟨schema, request.relationships, bindings⟩ level.scope grouping
                    statement dimensions outputs := by
  refine ⟨fun _ _ _ _ _ _ => groups_aligned, fun schema request bindings plan h => ?_⟩
  obtain ⟨result, hroot, hplan, hstand, honly⟩ := compile_groups h
  refine ⟨result, hroot, hplan, fun level grouping hreach hgrouping => ?stand,
    fun select hselect inner hsource => ?only⟩
  case stand =>
    obtain ⟨table, conditions, select, hgroups, hmem⟩ := hstand level grouping hreach hgrouping
    obtain ⟨statement, dimensions, outputs, rfl, haligned⟩ := groups_aligned hgroups
    exact ⟨statement, dimensions, outputs, hmem, haligned⟩
  case only =>
    obtain ⟨level, grouping, table, conditions, hreach, hgrouping, hgroups⟩ :=
      honly select hselect inner hsource
    obtain ⟨statement, dimensions, outputs, hstatement, haligned⟩ := groups_aligned hgroups
    exact ⟨level, grouping, statement, dimensions, outputs, hreach, hgrouping, hstatement, haligned⟩

/-- The groups of accounts by number and balance, with their count and their greatest balance. -/
def balanceRequest : Request where
  collection := "accounts"
  query := ⟨none, none, none, none, none, none, some
    { dimensions := [.column "id" [], .column "balance" []]
      aggregates := [("count", .starCount), ("a'0", .singleColumn "balance" "_max")]
      predicate := none
      orderBy := none
      limit := none
      offset := none }⟩
  relationships := []
  bindings := none

/-- Two dimensions and two aggregates: the document of a group has them under these names. -/
theorem balances_stay_aligned : ∃ plan result, balanceRequest.compile accountsSchema [] = .ok plan ∧
    Plan.ofNode result = plan ∧ ∃ (statement : GroupsStatement) (dimensions : List Expr)
      (outputs : List (String × Summary)),
      statement.select ∈ result.derivations ∧ dimensions.length = 2 ∧
      Entries.names outputs = ["count", "a'0"] ∧
      ∀ (valuation : Valuation Unit Cell) (cell : Cell),
        statement.group.Gives (.row (statement.inner.give valuation ())) cell ↔
          cell = some (valuedGroup valuation () dimensions outputs).json := by
  have hcompiled : balanceRequest.compile accountsSchema [] = .ok _ := rfl
  obtain ⟨result, -, hplan, hstand, -⟩ := group_columns_stay_aligned.2 _ _ _ _ hcompiled
  obtain ⟨statement, dimensions, outputs, hmem, haligned⟩ := hstand _ _ .refl rfl
  have hnames : Entries.names outputs = ["count", "a'0"] := by
    cases haligned.summarized with
    | cons hcount hrest =>
      cases hrest with
      | cons hmax hnone =>
        cases hnone
        rw [Entries.names, List.map_cons, List.map_singleton, hcount.1, hmax.1]
  exact ⟨_, result, hcompiled, hplan, statement, dimensions, outputs, hmem,
    haligned.placed.length_eq.symm, hnames, fun valuation => haligned.document valuation ()⟩

/-- The document of groups with one dimension and one aggregate. -/
example : (groupsStatement ⟨"memory.main.orders", "orders"⟩ [] .all
    [.projected .plainColumn ⟨"orders", "user_id"⟩]
    [("spent", .function .sum ⟨"orders", "total"⟩)]).group.render.sql =
      "JSON_OBJECT('dimensions', JSON_ARRAY(\"d0\"), 'aggregates', JSON_OBJECT('spent', \"a0\"))" :=
  rfl

end NestedSql.Compile
