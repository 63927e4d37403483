import NestedSql.Proofs.Values.Rendered

/-!
# Selects clause by clause

The text of a select is that of its clauses one behind the other, and a clause is its keyword and
the texts of its parts with commas between them, or nothing if there are no parts. The same holds of
the arrays and objects that outputs build.
-/

namespace NestedSql

theorem Statement.sql_joined (separator : String) (parts : List Statement) :
    (joined separator parts).sql = separator.intercalate (parts.map sql) := by
  fun_induction joined separator parts with
  | case1 => simp [empty, raw]
  | case2 part => simp
  | case3 part parts hne ih =>
    have hrest : parts.map sql ≠ [] := by simpa using hne
    rw [List.map_cons, String.intercalate_cons_of_ne_nil hrest, ← ih]
    rfl

theorem Statement.sql_raw (text : String) : (raw text).sql = text := rfl

namespace Sql

/-- A keyword and some texts with commas between them; nothing without texts. -/
def clause (keyword : String) (texts : List String) : String :=
  if texts.isEmpty then "" else keyword ++ ", ".intercalate texts

/-- A clause is left out exactly if nothing stands in it. -/
theorem clause_eq_empty {keyword : String} (h : keyword ≠ "") {texts : List String} :
    clause keyword texts = "" ↔ texts = [] := by
  cases texts with
  | nil => simp [clause]
  | cons text texts => simp [clause, h]

theorem sql_groupClause (keys : List Statement) :
    (groupClause keys).sql = clause " GROUP BY " (keys.map Statement.sql) := by
  cases keys with
  | nil => rfl
  | cons key keys => simp [groupClause, clause, Statement.sql_joined, Statement.sql_raw]

theorem orderClause_eq (keys : List SortKey) :
    orderClause keys = clause " ORDER BY " (keys.map SortKey.sql) := by
  simp [orderClause, clause]

/-- An output under its name. -/
def outputSql (output : Expr × Option String) : String :=
  (namedOutput output.1.render output.2).sql

theorem outputSql_some (value : Expr) (name : String) :
    outputSql (value, some name) = value.render.sql ++ " AS " ++ ident name := by
  simp [outputSql, namedOutput, Statement.sql_raw, String.append_assoc]

theorem sql_renderOutputs (outputs : List (Expr × Option String)) :
    (renderOutputs outputs).map Statement.sql = outputs.map outputSql := by
  induction outputs with
  | nil => rfl
  | cons output outputs ih =>
    rw [renderOutputs, List.map_cons, List.map_cons, ih]
    rfl

theorem sql_renderItems (items : List Expr) :
    (renderItems items).map Statement.sql = items.map fun item => item.render.sql := by
  rw [renderItems_eq, List.map_map]
  rfl

theorem sql_renderMembers (members : List (String × Expr)) :
    (renderMembers members).map Statement.sql =
      members.map fun member => key member.1 ++ ", " ++ member.2.render.sql := by
  induction members with
  | nil => rfl
  | cons member members ih =>
    rw [renderMembers, List.map_cons, List.map_cons, ih]
    rfl

/-- A select is written clause by clause. -/
theorem Select.sql_render (select : Select) :
    select.render.sql = "SELECT " ++ ", ".intercalate (select.outputs.map outputSql) ++
      select.source.render.sql ++ (conditionClause " WHERE " select.conditions).sql ++
      clause " GROUP BY " (select.groupBy.map fun key => key.render.sql) ++
      clause " ORDER BY " (select.orderBy.map SortKey.sql) ++ select.page.sql := by
  obtain ⟨outputs, source, conditions, groupBy, orderBy, page⟩ := select
  simp [Select.render, Statement.sql_joined, Statement.sql_raw, sql_groupClause, orderClause_eq,
    sql_renderOutputs, sql_renderItems]

/-- The array of some texts. -/
def arraySql (items : List String) : String :=
  if items.isEmpty then "JSON('[]')" else "JSON_ARRAY(" ++ ", ".intercalate items ++ ")"

/-- The object of some names and texts, each name quoted before its text. -/
def objectSql (members : List (String × String)) : String :=
  if members.isEmpty then "JSON('\x7b\x7d')"
  else "JSON_OBJECT(" ++
    ", ".intercalate (members.map fun member => key member.1 ++ ", " ++ member.2) ++ ")"

theorem Expr.sql_array (items : List Expr) :
    (Expr.array items).render.sql = arraySql (items.map fun item => item.render.sql) := by
  cases items with
  | nil => rfl
  | cons item items =>
    rw [render, ← sql_renderItems]
    simp [arraySql, Statement.sql_joined, Statement.sql_raw, renderItems]

theorem Expr.sql_object (members : List (String × Expr)) :
    (Expr.object members).render.sql =
      objectSql (members.map fun member => (member.1, member.2.render.sql)) := by
  cases members with
  | nil => rfl
  | cons member members =>
    have hmembers := sql_renderMembers (member :: members)
    rw [render, Statement.sql_append, Statement.sql_append, Statement.sql_joined, hmembers]
    simp [objectSql, Statement.sql_raw, Function.comp_def]

end Sql

end NestedSql
