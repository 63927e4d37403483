import NestedSql.Proofs.Compile.Success

/-!
# Values of rendered trees

The values of a rendered tree are those of its parts, in the order in which the parts are written:
outputs, tables with their joins, conditions, groups. Sort keys and pages have none. From this the
values of the selects of a node are read off the parts that the node was made of.
-/

namespace NestedSql

open Statement (params_append params_joined params_raw params_parenthesized)

@[simp] theorem Statement.params_empty : Statement.empty.params = [] := rfl

theorem ParamShape.params_bind (shape : ParamShape) (param : Param) :
    (shape.bind param).params = [param] := by
  cases shape <;> rfl

namespace Sql

/-! ## Conditions -/

attribute [local simp] Condition.render renderAll params_append params_raw params_parenthesized
  params_joined

/-- The values of conditions one after the other. -/
def conditionParams (conditions : List Condition) : List Param :=
  conditions.flatMap fun condition => condition.render.params

theorem renderAll_eq (conditions : List Condition) :
    renderAll conditions = conditions.map Condition.render := by
  induction conditions with
  | nil => rfl
  | cons condition conditions ih => simp [ih]

theorem params_renderAll (conditions : List Condition) :
    (renderAll conditions).flatMap Statement.params = conditionParams conditions := by
  rw [renderAll_eq, List.flatMap_map, conditionParams]

theorem Condition.params_compare (column : ColumnRef) (operator : BinaryOperator)
    (shape : ParamShape) (value : Param) :
    (Condition.compare column operator shape value).render.params = [value] := by
  simp [ParamShape.params_bind]

theorem Condition.params_junction (connective : Connective) (parts : List Condition) :
    (Condition.junction connective parts).render.params = conditionParams parts := by
  simp [params_renderAll]

theorem Condition.params_not (part : Condition) :
    (Condition.not part).render.params = part.render.params := by
  simp

theorem Condition.params_group (part : Condition) :
    (Condition.group part).render.params = part.render.params := by
  simp

theorem Condition.params_existsIn (table : Table) (conditions : List Condition) :
    (Condition.existsIn table conditions).render.params = conditionParams conditions := by
  rw [render, params_append, params_append, params_joined, params_renderAll, params_raw,
    params_raw, List.append_nil, List.nil_append]

theorem params_conditionClause (keyword : String) (conditions : List Condition) :
    (conditionClause keyword conditions).params = conditionParams conditions := by
  rw [conditionClause]
  cases conditions with
  | nil => rfl
  | cons condition conditions =>
    rw [List.isEmpty_cons, if_neg Bool.false_ne_true, params_append, params_joined,
      params_renderAll, params_raw, List.nil_append]

theorem Join.params_render (join : Join) :
    join.render.params = conditionParams join.conditions := by
  rw [render, params_append, params_conditionClause, params_raw, List.nil_append]

/-! ## Outputs and selects -/

attribute [local simp] Expr.render renderMembers renderItems renderOutputs Source.render
  Select.render

theorem renderItems_eq (items : List Expr) : renderItems items = items.map Expr.render := by
  induction items with
  | nil => rfl
  | cons item items ih => simp [ih]

theorem params_renderMembers (members : List (String × Expr)) :
    (renderMembers members).flatMap Statement.params =
      members.flatMap fun member => member.2.render.params := by
  induction members with
  | nil => rfl
  | cons member members ih =>
    rw [renderMembers, List.flatMap_cons, List.flatMap_cons, ih, params_append, params_raw,
      List.nil_append]

theorem params_namedOutput (value : Statement) (name : Option String) :
    (namedOutput value name).params = value.params := by
  cases name with
  | none => rfl
  | some name => rw [namedOutput, params_append, params_raw, List.append_nil]

theorem params_renderOutputs (outputs : List (Expr × Option String)) :
    (renderOutputs outputs).flatMap Statement.params =
      outputs.flatMap fun output => output.1.render.params := by
  induction outputs with
  | nil => rfl
  | cons output outputs ih =>
    rw [renderOutputs, List.flatMap_cons, List.flatMap_cons, ih, params_namedOutput]

theorem params_groupClause (keys : List Statement) :
    (groupClause keys).params = keys.flatMap Statement.params := by
  rw [groupClause]
  cases keys with
  | nil => rfl
  | cons key keys =>
    rw [List.isEmpty_cons, if_neg Bool.false_ne_true, params_append, params_joined, params_raw,
      List.nil_append]

theorem Expr.params_object (members : List (String × Expr)) :
    (Expr.object members).render.params =
      members.flatMap fun member => member.2.render.params := by
  cases members with
  | nil => rfl
  | cons member members =>
    rw [render, params_append, params_append, params_joined, params_renderMembers, params_raw,
      params_raw, List.append_nil, List.nil_append]

theorem Expr.params_array (items : List Expr) :
    (Expr.array items).render.params = items.flatMap fun item => item.render.params := by
  cases items with
  | nil => rfl
  | cons item items =>
    rw [render, params_append, params_append, params_joined, renderItems_eq, List.flatMap_map,
      params_raw, params_raw, List.append_nil, List.nil_append]

theorem Expr.params_collect (item : Expr) (order : List SortKey) :
    (Expr.collect item order).render.params = item.render.params := by
  simp

theorem Expr.params_coalesce (value fallback : Expr) :
    (Expr.coalesce value fallback).render.params =
      value.render.params ++ fallback.render.params := by
  simp

theorem Expr.params_rowsOf (document : Expr) :
    (Expr.rowsOf document).render.params = document.render.params := by
  simp

theorem Expr.params_subquery (select : Select) :
    (Expr.subquery select).render.params = select.render.params := by
  simp

theorem Source.params_tables (table : Table) (joins : List Join) :
    (Source.tables table joins).render.params =
      joins.flatMap fun join => conditionParams join.conditions := by
  rw [render, params_append, params_joined, params_raw, List.nil_append, List.flatMap_map]
  simp only [Join.params_render]

theorem Source.params_derived (select : Select) (tableAlias : String) :
    (Source.derived select tableAlias).render.params = select.render.params := by
  simp

theorem Select.params_render (select : Select) :
    select.render.params =
      (select.outputs.flatMap fun output => output.1.render.params) ++
        select.source.render.params ++ conditionParams select.conditions ++
        select.groupBy.flatMap fun key => key.render.params := by
  obtain ⟨outputs, source, conditions, groupBy, orderBy, page⟩ := select
  simp [params_renderOutputs, params_conditionClause, params_groupClause, renderItems_eq,
    List.flatMap_map]

/-- Returning a document as text adds no value and drops none. -/
theorem Select.params_renderRoot (select : Select) :
    select.renderRoot.params = select.render.params := by
  rw [renderRoot, params_append, params_append, params_parenthesized, params_raw, params_raw,
    List.append_nil, List.nil_append]

end Sql

namespace Compile

open Sql (Condition Expr Join Select SortKey Summary Table conditionParams)

/-! ## Selects of nodes -/

/-- The values behind the outputs of a select over the rows of a node. -/
def Rows.params (rows : Rows) : List Param :=
  (rows.ordering.joins.flatMap fun join => conditionParams join.conditions) ++
    conditionParams rows.conditions

theorem sortOutput_params (i : Nat) (key : SortKey) :
    (sortOutput i key).1.render.params = [] := by
  rw [sortOutput]
  cases key.column <;> rfl

theorem rowsSelect_params (rows : Rows) (row : Expr) :
    (rowsSelect rows row).render.params = row.render.params ++ rows.params := by
  have hsort : (rows.ordering.keys.mapIdx sortOutput).flatMap
      (fun output => output.1.render.params) = [] := by
    rw [List.flatMap_eq_nil_iff]
    intro output houtput
    obtain ⟨i, hi, rfl⟩ := List.mem_mapIdx.mp houtput
    exact sortOutput_params i _
  have hr : (Expr.output "r").render.params = [] := rfl
  simp only [rowsSelect, Select.single, Select.params_render, Sql.Source.params_derived,
    Sql.Source.params_tables, arrayOf, emptyArray, Expr.params_object, Expr.params_coalesce,
    Expr.params_collect, Expr.params_array, List.flatMap_cons, List.flatMap_nil, hsort, hr,
    conditionParams, List.append_nil, List.nil_append, Rows.params, List.append_assoc]

theorem aggregatesSelect_params (rows : Rows) (outputs : List (String × Summary)) :
    (aggregatesSelect rows outputs).render.params =
      if outputs.isEmpty then [] else rows.params := by
  have hall : (Expr.allOf rows.table.tableAlias).render.params = [] := rfl
  have hsummaries : (outputs.flatMap fun output => (Expr.summary output.2).render.params) = [] :=
    List.flatMap_eq_nil_iff.mpr fun _ _ => rfl
  rw [aggregatesSelect]
  split
  · rfl
  · simp only [Select.single, Select.params_render, Sql.Source.params_derived,
      Sql.Source.params_tables, Expr.params_object, List.flatMap_map, List.flatMap_cons,
      List.flatMap_nil, hsummaries, hall, conditionParams, List.append_nil, List.nil_append,
      Rows.params]

theorem groupsSelect_params (table : Table) (conditions : List Condition) (page : Sql.Page)
    {dimensions : List Expr} (outputs : List (String × Summary))
    (hdimensions : ∀ value ∈ dimensions, value.render.params = []) :
    (groupsSelect table conditions page dimensions outputs).render.params =
      conditionParams conditions := by
  have hnamed : ∀ named : List (Expr × Option String),
      (∀ output ∈ named, output.1.render.params = []) →
      ((if named.isEmpty then [(.summary .rows, some "n")] else named).flatMap
        fun output => output.1.render.params) = [] := by
    intro named h
    split
    · rfl
    · exact List.flatMap_eq_nil_iff.mpr h
  have houtputs := hnamed (dimensions.mapIdx (fun i value => (value, some (dimensionName i))) ++
      outputs.mapIdx (fun i output => (.summary output.2, some (aggregateName i)))) (by
    intro output houtput
    rcases List.mem_append.mp houtput with houtput | houtput
    · obtain ⟨i, hi, rfl⟩ := List.mem_mapIdx.mp houtput
      exact hdimensions _ (List.getElem_mem hi)
    · obtain ⟨i, hi, rfl⟩ := List.mem_mapIdx.mp houtput
      rfl)
  have hkeys : (dimensions.flatMap fun value => value.render.params) = [] :=
    List.flatMap_eq_nil_iff.mpr hdimensions
  have hnumbered : (dimensions.mapIdx fun i _ => Expr.output (dimensionName i)).flatMap
      (fun item => item.render.params) = [] :=
    flatMap_numbered_nil (fun _ _ => rfl) dimensions
  have haggregates : (outputs.mapIdx fun i output =>
      (output.1, Expr.output (aggregateName i))).flatMap
        (fun member => member.2.render.params) = [] :=
    flatMap_numbered_nil (fun _ _ => rfl) outputs
  simp only [groupsSelect, arrayOf, emptyArray, Select.single, Select.params_render,
    Sql.Source.params_derived, Sql.Source.params_tables, Expr.params_object, Expr.params_coalesce,
    Expr.params_collect, Expr.params_array, List.flatMap_cons, List.flatMap_nil, houtputs, hkeys,
    hnumbered, haggregates, List.append_nil, List.nil_append]
  exact List.append_nil _

/-- The values of a select that may be absent. -/
def partParams (select : Option Select) : Option (List Param) :=
  select.map fun select => select.render.params

/-- A child carries the values of its rows, its aggregates and its groups, in this order. -/
theorem childExpr_params (child : Node) :
    (childExpr child).render.params =
      (partParams child.rows).getD [] ++ (partParams child.aggregates).getD [] ++
        (partParams child.groups).getD [] := by
  obtain ⟨rows, aggregates, groups⟩ := child
  cases rows <;> cases aggregates <;> cases groups <;>
    simp [childExpr, emptyArray, Select.single, Select.params_render, Expr.params_coalesce,
      Expr.params_subquery, Expr.params_array, Expr.params_object, Expr.params_rowsOf,
      conditionParams, Sql.Source.render, partParams]

end Compile

end NestedSql
