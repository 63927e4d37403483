import NestedSql.Proofs.Influence.Texts
import NestedSql.Proofs.Values.Rendered

/-!
# Trees that differ in values and names

Conditions and joins that differ only in the values they compare with have the same text. The
selects of a node carry this on: what is around the object of a row, around the aggregates and
around the groups is the same text, and the keys of these objects are the only places where a name
of the request is written as a literal.
-/

namespace NestedSql

open Statement (raw joined alike_raw closed_empty)
open Sql (Condition Expr Join Select SortKey Source Summary Table)

namespace Statement

variable {first second later last : Statement}

theorem Same.append (h : Same first second) (hrest : Same later last) :
    Same (first ++ later) (second ++ last) where
  sql := by rw [sql_append, sql_append, h.sql, hrest.sql]
  params := by
    rw [params_append, params_append, List.length_append, List.length_append, h.params,
      hrest.params]

theorem Same.parenthesized (h : Same first second) :
    Same first.parenthesized second.parenthesized :=
  ((Same.refl (raw "(")).append h).append (Same.refl (raw ")"))

theorem Same.joined {separator : String} {parts others : List Statement}
    (h : List.Forall₂ Same parts others) :
    Same (joined separator parts) (joined separator others) := by
  induction h with
  | nil => exact .refl _
  | cons hpart hparts ih =>
    cases hparts with
    | nil => exact hpart
    | cons => exact (hpart.append (Same.refl (raw separator))).append ih

end Statement

namespace Sql

/-! ## Conditions and joins -/

/-- The conditions have the same text and as many values. -/
def Condition.Same (first second : Condition) : Prop := first.render.Same second.render

theorem Condition.Same.refl (condition : Condition) : condition.Same condition :=
  Statement.Same.refl _

theorem renderAll_same {conditions others : List Condition}
    (h : List.Forall₂ Condition.Same conditions others) :
    List.Forall₂ Statement.Same (renderAll conditions) (renderAll others) := by
  rw [renderAll_eq, renderAll_eq]
  exact List.forall₂_map_left_iff.mpr (List.forall₂_map_right_iff.mpr h)

theorem conditionClause_same (keyword : String) {conditions others : List Condition}
    (h : List.Forall₂ Condition.Same conditions others) :
    (conditionClause keyword conditions).Same (conditionClause keyword others) := by
  cases h with
  | nil => exact .refl _
  | cons hcondition hconditions =>
    exact (Statement.Same.refl (raw keyword)).append
      (.joined (renderAll_same (.cons hcondition hconditions)))

/-- The same table under conditions with the same text. -/
structure Join.Same (first second : Join) : Prop where
  table : first.table = second.table
  conditions : List.Forall₂ Condition.Same first.conditions second.conditions

theorem Join.Same.render {first second : Join} (h : first.Same second) :
    first.render.Same second.render := by
  rw [Join.render, Join.render, h.table]
  exact (Statement.Same.refl _).append (conditionClause_same " ON " h.conditions)

theorem tables_same (table : Table) {joins others : List Join}
    (h : List.Forall₂ Join.Same joins others) :
    (Source.tables table joins).render.Same (Source.tables table others).render := by
  rw [Source.render, Source.render]
  apply (Statement.Same.refl _).append
  apply Statement.Same.joined
  exact List.forall₂_map_left_iff.mpr (List.forall₂_map_right_iff.mpr (h.imp fun _ _ => (·.render)))

/-! ## Selects -/

/-- Outputs that are alike under a renaming. -/
def Expr.Alike (names : Renaming) (first second : Expr) : Prop :=
  Statement.Alike names first.render second.render

def Select.Alike (names : Renaming) (first second : Select) : Prop :=
  Statement.Alike names first.render second.render

/-- Members that are alike; a key is either renamed or kept. -/
inductive MembersAlike : Renaming → List (String × Expr) → List (String × Expr) → Prop
  | nil : MembersAlike [] [] []
  | renamed {inner names : Renaming} {value other : Expr} {members others : List (String × Expr)}
      (old new : String) : value.Alike inner other → MembersAlike names members others →
        MembersAlike ((old, new) :: (inner ++ names)) ((old, value) :: members)
          ((new, other) :: others)
  | kept {inner names : Renaming} {value other : Expr} {members others : List (String × Expr)}
      (name : String) : value.Alike inner other → MembersAlike names members others →
        MembersAlike (inner ++ names) ((name, value) :: members) ((name, other) :: others)

section

variable {names others : Renaming}

theorem Expr.Alike.refl (expr : Expr) : expr.Alike [] expr := expr.closed_render.alike

theorem MembersAlike.append {members later behind last : List (String × Expr)}
    (h : MembersAlike names members later) (hrest : MembersAlike others behind last) :
    MembersAlike (names ++ others) (members ++ behind) (later ++ last) := by
  induction h with
  | nil => exact hrest
  | renamed old new hvalue _ ih =>
    rw [List.cons_append, List.append_assoc]
    exact .renamed old new hvalue ih
  | kept name hvalue _ ih =>
    rw [List.append_assoc]
    exact .kept name hvalue ih

theorem detaches_comma : Detaches ", " := detaches "," ' ' rfl rfl

/-- Members with commas between them are alike behind a mark. -/
theorem members_alike {members later : List (String × Expr)}
    (h : MembersAlike names members later) :
    Statement.AlikeBehindMark names (joined ", " (renderMembers members))
      (joined ", " (renderMembers later)) := by
  have hlist : ∀ {inner names : Renaming} {part other : Statement}
      {members later : List (String × Expr)}, Statement.AlikeBehindMark inner part other →
      MembersAlike names members later →
      Statement.AlikeBehindMark names (joined ", " (renderMembers members))
        (joined ", " (renderMembers later)) →
      Statement.AlikeBehindMark (inner ++ names) (joined ", " (part :: renderMembers members))
        (joined ", " (other :: renderMembers later)) := by
    intro inner names part other members later hpart hmembers hrest
    cases hmembers with
    | nil =>
      rw [List.append_nil]
      exact hpart
    | renamed => exact hpart.append_mark detaches_comma hrest
    | kept => exact hpart.append_mark detaches_comma hrest
  induction h with
  | nil => exact closed_empty.alike.behindMark
  | renamed old new hvalue hmembers ih =>
    exact hlist ((Statement.alike_key old new).append hvalue) hmembers ih
  | kept name hvalue hmembers ih =>
    have hkey : (raw (key name ++ ", ")).Closed := (closed_key name).raw_append fun _ _ => rfl
    exact hlist (hkey.alike.behindMark.append hvalue) hmembers ih

theorem object_alike {members later : List (String × Expr)}
    (h : MembersAlike names members later) : (Expr.object members).Alike names (.object later) := by
  have hopen : Detaches "JSON_OBJECT(" := detaches "JSON_OBJECT" '(' rfl rfl
  have hclose : Statement.Alike [] (raw ")") (raw ")") := alike_raw rfl
  have hwhole := (closed_empty.alike.append_mark hopen (members_alike h)).append_same hclose
  cases h with
  | nil => exact .refl _
  | renamed => exact hwhole
  | kept => exact hwhole

theorem coalesce_alike {value other : Expr} (fallback : Expr) (h : value.Alike names other) :
    (Expr.coalesce value fallback).Alike names (.coalesce other fallback) := by
  rw [Expr.Alike, Expr.render, Expr.render]
  exact (((alike_raw rfl).append h |>.append_same (alike_raw rfl)).append_same
    fallback.closed_render.alike).append_same (alike_raw rfl)

theorem collect_alike {item other : Expr} (order : List SortKey) (h : item.Alike names other) :
    (Expr.collect item order).Alike names (.collect other order) := by
  rw [Expr.Alike, Expr.render, Expr.render]
  exact (((alike_raw rfl).append h).append_same (closed_orderClause order).alike).append_same
    (alike_raw rfl)

theorem rowsOf_alike {document other : Expr} (h : document.Alike names other) :
    (Expr.rowsOf document).Alike names (.rowsOf other) := by
  rw [Expr.Alike, Expr.render, Expr.render]
  exact ((alike_raw rfl).append h).append_same (alike_raw rfl)

theorem subquery_alike {select other : Select} (h : select.Alike names other) :
    (Expr.subquery select).Alike names (.subquery other) := by
  rw [Expr.Alike, Expr.render, Expr.render]
  exact h.parenthesized

theorem derived_alike {select other : Select} (tableAlias : String) (h : select.Alike names other) :
    Statement.Alike names (Source.derived select tableAlias).render
      (Source.derived other tableAlias).render := by
  rw [Source.render, Source.render]
  have halias : (raw (ident tableAlias)).Closed := closed_ident tableAlias
  exact ((alike_raw rfl).append h).append_same ((alike_raw rfl).append halias.alike)

/-- An output in front of others that are kept. -/
theorem outputs_alike {output other : Expr} (h : output.Alike names other) (name : Option String)
    (kept : List (Expr × Option String)) :
    Statement.Alike names (joined ", " (renderOutputs ((output, name) :: kept)))
      (joined ", " (renderOutputs ((other, name) :: kept))) := by
  have hnamed : Statement.Alike names (namedOutput output.render name)
      (namedOutput other.render name) := by
    cases name with
    | none => exact h
    | some name =>
      have hname : (raw (" AS " ++ ident name)).Closed :=
        Statement.Closed.raw_append (fun _ _ => rfl) (closed_ident name)
      exact h.append_same hname.alike
  cases kept with
  | nil => exact hnamed
  | cons next kept =>
    have hkept : (joined ", " (renderOutputs (next :: kept))).Closed :=
      Statement.closed_joined (fun _ _ => rfl) (closed_renderOutputs (next :: kept))
    exact (hnamed.append_same (alike_raw rfl)).append_same hkept.alike

/-- A select is alike when its outputs and its source are, and its conditions have the same
text. -/
theorem select_alike {outputs later : List (Expr × Option String)} {source other : Source}
    {conditions changed : List Condition}
    (houtputs : Statement.Alike names (joined ", " (renderOutputs outputs))
      (joined ", " (renderOutputs later)))
    (hsource : Statement.Alike others source.render other.render)
    (hconditions : List.Forall₂ Condition.Same conditions changed) (groupBy : List Expr)
    (orderBy : List SortKey) (page : Page) :
    Select.Alike (names ++ others) ⟨outputs, source, conditions, groupBy, orderBy, page⟩
      ⟨later, other, changed, groupBy, orderBy, page⟩ := by
  have hclause : (conditionClause " WHERE " conditions).Closed :=
    closed_conditionClause (fun _ _ => rfl) conditions
  have hgroups : (groupClause (renderItems groupBy)).Closed :=
    closed_groupClause (closed_renderItems groupBy)
  rw [Select.Alike, Select.render, Select.render]
  exact ((((((alike_raw rfl).append houtputs).append hsource).append_same
    ((conditionClause_same " WHERE " hconditions).alike hclause.after_sql)).append_same
      hgroups.alike).append_same (closed_orderClause orderBy).alike).append_same
        page.closed_sql.alike

theorem single_alike {output other : Expr} {source later : Source}
    (houtput : output.Alike names other)
    (hsource : Statement.Alike others source.render later.render) :
    (Select.single output source).Alike (names ++ others) (.single other later) :=
  select_alike (outputs_alike houtput none []) hsource .nil [] [] .all

theorem renderRoot_alike {select other : Select} (h : select.Alike names other) :
    Statement.Alike names select.renderRoot other.renderRoot :=
  ((alike_raw rfl).append h.parenthesized).append_same (alike_raw rfl)

end

end Sql

namespace Compile

/-! ## Selects of nodes -/

/-- Orders with the same keys over joins with the same text. -/
structure Ordering.Same (first second : Ordering) : Prop where
  joins : List.Forall₂ Join.Same first.joins second.joins
  keys : first.keys = second.keys

/-- Rows from the same tables, with the same text everywhere. -/
structure Rows.Same (first second : Rows) : Prop where
  table : first.table = second.table
  conditions : List.Forall₂ Condition.Same first.conditions second.conditions
  ordering : first.ordering.Same second.ordering
  page : first.page = second.page

section

variable {names : Renaming} {rows others : Rows}

/-- A select over the rows of a node. -/
theorem Rows.Same.select_alike (h : rows.Same others) {output other : Expr}
    (houtput : output.Alike names other) (name : Option String)
    (kept : List (Expr × Option String)) :
    Select.Alike names ⟨(output, name) :: kept, .tables rows.table rows.ordering.joins,
        rows.conditions, [], rows.ordering.keys, rows.page⟩
      ⟨(other, name) :: kept, .tables others.table others.ordering.joins, others.conditions, [],
        others.ordering.keys, others.page⟩ := by
  have hsource := (Sql.tables_same others.table h.ordering.joins).alike
    (Source.closed_render _).after_sql
  rw [h.table, h.ordering.keys, h.page]
  have hselect := Sql.select_alike (Sql.outputs_alike houtput name kept) hsource h.conditions []
    others.ordering.keys others.page
  rwa [List.append_nil] at hselect

theorem rowsSelect_alike (h : rows.Same others) {row other : Expr} (hrow : row.Alike names other) :
    (rowsSelect rows row).Alike names (rowsSelect others other) := by
  have hinner := h.select_alike hrow (some "r") (others.ordering.keys.mapIdx sortOutput)
  rw [rowsSelect, rowsSelect, h.ordering.keys]
  rw [h.ordering.keys] at hinner
  exact Sql.single_alike (Expr.Alike.refl _) (Sql.derived_alike "rows" hinner)

/-- Aggregates that are the same under other names. -/
inductive SummariesAlike : Renaming → List (String × Summary) → List (String × Summary) → Prop
  | nil : SummariesAlike [] [] []
  | cons {names : Renaming} {outputs later : List (String × Summary)} (old new : String)
      (summary : Summary) : SummariesAlike names outputs later →
        SummariesAlike ((old, new) :: names) ((old, summary) :: outputs) ((new, summary) :: later)

variable {outputs later : List (String × Summary)}

theorem aggregatesSelect_alike (h : rows.Same others) (houtputs : SummariesAlike names outputs later) :
    (aggregatesSelect rows outputs).Alike names (aggregatesSelect others later) := by
  have hmembers : Sql.MembersAlike names
      (outputs.map fun output => (output.1, .summary output.2))
      (later.map fun output => (output.1, .summary output.2)) := by
    induction houtputs with
    | nil => exact .nil
    | cons old new summary _ ih => exact .renamed old new (Expr.Alike.refl _) ih
  have hinner := h.select_alike (Expr.Alike.refl (.allOf others.table.tableAlias)) none []
  have hwhole := Sql.single_alike (Sql.object_alike hmembers)
    (Sql.derived_alike subqueryAlias hinner)
  rw [List.append_nil] at hwhole
  cases houtputs with
  | nil => exact (Select.closed_render _).alike
  | cons =>
    rw [aggregatesSelect, aggregatesSelect, h.table]
    rw [h.table] at hwhole
    exact hwhole

/-- The outputs of the groups inside have names of their own. -/
theorem SummariesAlike.numbered (h : SummariesAlike names outputs later) {β : Type}
    (number : Nat → Summary → β) :
    (outputs.mapIdx fun i output => number i output.2) =
      later.mapIdx fun i output => number i output.2 := by
  induction h generalizing number with
  | nil => rfl
  | cons old new summary _ ih =>
    rw [List.mapIdx_cons, List.mapIdx_cons, ih fun i => number (i + 1)]

theorem groupsSelect_alike (table : Table) {conditions changed : List Condition}
    (hconditions : List.Forall₂ Condition.Same conditions changed) (page : Sql.Page)
    (dimensions : List Expr) (houtputs : SummariesAlike names outputs later) :
    (groupsSelect table conditions page dimensions outputs).Alike names
      (groupsSelect table changed page dimensions later) := by
  have hmembers : ∀ number : Nat → String, Sql.MembersAlike names
      (outputs.mapIdx fun i output => (output.1, .output (number i)))
      (later.mapIdx fun i output => (output.1, .output (number i))) := by
    induction houtputs with
    | nil => exact fun _ => .nil
    | cons old new summary _ ih =>
      intro number
      rw [List.mapIdx_cons, List.mapIdx_cons]
      exact .renamed old new (Expr.Alike.refl _) (ih fun i => number (i + 1))
  have hgroup : (Expr.object
      [("dimensions", .array (dimensions.mapIdx fun i _ => .output (dimensionName i))),
        ("aggregates",
          .object (outputs.mapIdx fun i output => (output.1, .output (aggregateName i))))]).Alike
      names (.object
      [("dimensions", .array (dimensions.mapIdx fun i _ => .output (dimensionName i))),
        ("aggregates",
          .object (later.mapIdx fun i output => (output.1, .output (aggregateName i))))]) := by
    have hboth := Sql.MembersAlike.kept "dimensions"
      (Expr.Alike.refl (.array (dimensions.mapIdx fun i _ => .output (dimensionName i))))
      (.kept "aggregates" (Sql.object_alike (hmembers aggregateName)) .nil)
    rw [List.append_nil] at hboth
    exact Sql.object_alike hboth
  have hnamed := houtputs.numbered fun i output =>
    ((Expr.summary output, some (aggregateName i)) : Expr × Option String)
  have hinner : ∀ (inside : List (Expr × Option String)) (order : List SortKey), Select.Alike []
      ⟨inside, .tables table [], conditions, dimensions, order, page⟩
      ⟨inside, .tables table [], changed, dimensions, order, page⟩ := by
    intro inside order
    have hinside : (joined ", " (Sql.renderOutputs inside)).Closed :=
      Statement.closed_joined (fun _ _ => rfl) (Sql.closed_renderOutputs inside)
    exact Sql.select_alike hinside.alike (Source.closed_render _).alike hconditions dimensions
      order page
  rw [groupsSelect, groupsSelect, hnamed, ← List.append_nil names]
  exact Sql.single_alike (Sql.coalesce_alike emptyArray (Sql.collect_alike _ hgroup))
    (Sql.derived_alike "groups" (hinner _ _))

/-! ## Nodes -/

/-- The selects of two nodes, part by part. -/
structure Node.Alike (names : PartRenaming) (first second : Node) : Prop where
  rows : OptionAlike Select.Alike names.rows first.rows second.rows
  aggregates : OptionAlike Select.Alike names.aggregates first.aggregates second.aggregates
  groups : OptionAlike Select.Alike names.groups first.groups second.groups

/-- An optional select as a member under a key that is kept. -/
theorem part_alike {select other : Option Select} (h : OptionAlike Select.Alike names select other)
    (name : String) {value : Select → Expr}
    (hvalue : ∀ {names : Renaming} {select other : Select}, select.Alike names other →
      (value select).Alike names (value other)) :
    Sql.MembersAlike names (select.map fun select => (name, value select)).toList
      (other.map fun select => (name, value select)).toList := by
  cases h with
  | none => exact .nil
  | some h =>
    have hone := Sql.MembersAlike.kept name (hvalue h) .nil
    rwa [List.append_nil] at hone

theorem childExpr_alike {names : PartRenaming} {child other : Node} (h : child.Alike names other) :
    (childExpr child).Alike names.all (childExpr other) := by
  have hrows := part_alike h.rows "rows" fun h => Sql.rowsOf_alike (Sql.subquery_alike h)
  have haggregates := part_alike h.aggregates "aggregates" Sql.subquery_alike
  have hgroups := part_alike h.groups "groups" Sql.subquery_alike
  have hmembers := Sql.object_alike ((hrows.append haggregates).append hgroups)
  have hdocument := Sql.coalesce_alike emptyArray (Sql.subquery_alike
    (Sql.single_alike hmembers (Source.closed_render .nothing).alike))
  rw [List.append_nil] at hdocument
  obtain ⟨hrows, haggregates, hgroups⟩ := h
  obtain ⟨rows, aggregates, groups⟩ := child
  obtain ⟨rows', aggregates', groups'⟩ := other
  obtain ⟨inRows, inAggregates, inGroups⟩ := names
  -- rows alone are embedded as they are; everything else is an object of its parts
  cases hrows with
  | none => cases haggregates <;> cases hgroups <;> exact hdocument
  | some hselect =>
    cases haggregates with
    | some => cases hgroups <;> exact hdocument
    | none =>
      cases hgroups with
      | some => exact hdocument
      | none =>
        have halone := Sql.coalesce_alike emptyArray (Sql.subquery_alike hselect)
        rw [PartRenaming.all, List.append_nil, List.append_nil]
        exact halone

end

end Compile

end NestedSql
