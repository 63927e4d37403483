import NestedSql.Proofs.Compile.Success
import NestedSql.Proofs.Text.Scan

/-!
# The statements of a plan are lexically closed

Every name is written between quotes with the quotes inside doubled, so a scan leaves it where it
entered, whatever the name holds. From this, each kind of tree writes a closed statement, and so
do the trees that a request or a filter compiles to. The proofs follow the constructors of the
trees; which tree is compiled does not matter.
-/

namespace NestedSql

open Statement

namespace Sql

/-! ## Names -/

/-- Inside quotes a scan passes a doubled name and still stands inside. -/
theorem run_doubled (quote : Char) (hq : quote = '\'' ∨ quote = '"') (name rest : List Char)
    (depth n : Nat) :
    Scan.run ⟨some quote, depth, n⟩ (doubled quote name ++ rest) =
      Scan.run ⟨some quote, depth, n⟩ rest := by
  induction name with
  | nil => rfl
  | cons c name ih =>
    by_cases hc : c = quote
    · subst hc
      have hout : Scan.step ⟨some c, depth, n⟩ c = some ⟨none, depth, n⟩ := by simp [Scan.step]
      have hin : Scan.step ⟨none, depth, n⟩ c = some ⟨some c, depth, n⟩ := by
        simp [Scan.step, hq]
      rw [doubled, if_pos rfl, List.cons_append, List.cons_append, Scan.run_cons, hout,
        Option.bind_some, Scan.run_cons, hin, Option.bind_some, ih]
    · have hs : Scan.step ⟨some quote, depth, n⟩ c = some ⟨some quote, depth, n⟩ := by
        simp [Scan.step, hc]
      rw [doubled, if_neg hc, List.cons_append, Scan.run_cons, hs, Option.bind_some, ih]

theorem run_enclosed (quote : Char) (hq : quote = '\'' ∨ quote = '"') (name : List Char)
    (depth n : Nat) :
    Scan.run ⟨none, depth, n⟩ (enclosed quote name) = some ⟨none, depth, n⟩ := by
  have hin : Scan.step ⟨none, depth, n⟩ quote = some ⟨some quote, depth, n⟩ := by
    simp [Scan.step, hq]
  have hout : Scan.step ⟨some quote, depth, n⟩ quote = some ⟨none, depth, n⟩ := by
    simp [Scan.step]
  rw [enclosed, Scan.run_cons, hin, Option.bind_some, run_doubled quote hq, Scan.run_cons, hout]
  rfl

theorem closed_ident (name : String) : (raw (ident name)).Closed := by
  intro base n
  show Scan.run _ (ident name).toList = _
  rw [ident, String.toList_ofList]
  exact run_enclosed '"' (Or.inr rfl) name.toList (base + 0) n

theorem closed_key (name : String) : (raw (key name)).Closed := by
  intro base n
  show Scan.run _ (key name).toList = _
  rw [key, String.toList_ofList]
  exact run_enclosed '\'' (Or.inl rfl) name.toList (base + 0) n

theorem closed_intercalate {separator : String} (hs : (raw separator).Closed)
    {texts : List String} (ht : ∀ text ∈ texts, (raw text).Closed) :
    (raw (separator.intercalate texts)).Closed := by
  induction texts with
  | nil => exact closed_empty
  | cons text texts ih =>
    have htext := ht text List.mem_cons_self
    cases texts with
    | nil => rwa [String.intercalate_singleton]
    | cons next texts =>
      rw [String.intercalate_cons_cons]
      exact (htext.raw_append hs).raw_append
        (ih fun other ho => ht other (List.mem_cons_of_mem _ ho))

theorem closed_table (storage : String) : (raw (table storage)).Closed := by
  apply closed_intercalate (fun _ _ => rfl)
  intro text ht
  obtain ⟨part, _, rfl⟩ := List.mem_map.mp ht
  exact closed_ident part

theorem closed_qualified (tableAlias column : String) :
    (raw (qualified tableAlias column)).Closed :=
  ((closed_ident tableAlias).raw_append fun _ _ => rfl).raw_append (closed_ident column)

theorem ColumnRef.closed_sql (ref : ColumnRef) : (raw ref.sql).Closed :=
  closed_qualified ref.tableAlias ref.column

theorem Table.closed_sql (table : Table) : (raw table.sql).Closed :=
  ((closed_table table.storage).raw_append fun _ _ => rfl).raw_append
    (closed_ident table.tableAlias)

end Sql

/-! ## Calls

A call opens a parenthesis before its argument and closes it behind. -/

namespace Statement

theorem closed_call {opening closing : String} (ho : (raw opening).Nests 0 1)
    (hc : (raw closing).Nests 1 0) {inner : Statement} (h : inner.Closed) :
    (raw opening ++ inner ++ raw closing).Closed :=
  (ho.append (h.nests 1)).append hc

theorem closed_raw_call {opening closing : String} (ho : (raw opening).Nests 0 1)
    (hc : (raw closing).Nests 1 0) {inner : String} (h : (raw inner).Closed) :
    (raw (opening ++ inner ++ closing)).Closed := by
  rw [Statement.raw_append, Statement.raw_append]
  exact closed_call ho hc h

end Statement

/-! ## Formulas and strategies -/

theorem RowTerm.closed_sql {column : String} (h : (raw column).Closed) (term : RowTerm) :
    (raw (term.sql column)).Closed := by
  induction term with
  | column => exact h
  | asDouble term ih => exact closed_raw_call (fun _ _ => rfl) (fun _ _ => rfl) ih
  | asText term ih => exact closed_raw_call (fun _ _ => rfl) (fun _ _ => rfl) ih
  | nullAsText term ih => exact closed_raw_call (fun _ _ => rfl) (fun _ _ => rfl) ih
  | square term ih => exact closed_raw_call (fun _ _ => rfl) (fun _ _ => rfl) ih

theorem Formula.closed_sql {column : String} (h : (raw column).Closed) (formula : Formula) :
    (raw (formula.sql column)).Closed := by
  induction formula with
  | count term | sum term | avg term | max term | min term | concat term | concatDistinct term =>
    exact closed_raw_call (fun _ _ => rfl) (fun _ _ => rfl) (term.closed_sql h)
  | number value => exact closed_nat value
  | mul left right hl hr | sub left right hl hr | div left right hl hr =>
    exact (hl.raw_append fun _ _ => rfl).raw_append hr
  | square formula ih | nullIfZero formula ih | sqrt formula ih | group formula ih =>
    exact closed_raw_call (fun _ _ => rfl) (fun _ _ => rfl) ih
  | zeroIfNegative formula ih =>
    have hcase : (raw "CASE WHEN ").Closed := fun _ _ => rfl
    have helse : (raw " < 0 THEN 0 ELSE ").Closed := fun _ _ => rfl
    have hend : (raw " END").Closed := fun _ _ => rfl
    exact (((hcase.raw_append ih).raw_append helse).raw_append ih).raw_append hend

theorem Strategy.closed_project (strategy : Strategy) {column : String} (h : (raw column).Closed) :
    (raw (strategy.project column)).Closed := by
  cases strategy with
  | castAsText => exact closed_raw_call (fun _ _ => rfl) (fun _ _ => rfl) h
  | _ => exact h

theorem Strategy.closed_orderKey (strategy : Strategy) {column : String}
    (h : (raw column).Closed) : (raw (strategy.orderKey column)).Closed := by
  cases strategy with
  | caseInsensitiveOrder => exact h.raw_append fun _ _ => rfl
  | _ => exact h

theorem CastType.closed_sql (type : CastType) : (raw type.sql).Closed := by
  cases type with
  | timestamp => exact fun _ _ => rfl
  | wide integer => cases integer <;> exact fun _ _ => rfl

theorem ParamShape.closed_bind (shape : ParamShape) (param : Param) :
    (shape.bind param).Closed := by
  cases shape with
  | plain => exact Statement.closed_bind param
  | cast type =>
    have has : (raw " AS ").Closed := fun _ _ => rfl
    have ho : (raw "CAST(").Nests 0 1 := fun _ _ => rfl
    have hc : (raw ")").Nests 1 0 := fun _ _ => rfl
    have hp := (Statement.closed_bind param).nests 1
    exact (((ho.append hp).append (has.nests 1)).append (type.closed_sql.nests 1)).append hc

theorem BinaryOperator.closed_sql (operator : BinaryOperator) : (raw operator.sql).Closed := by
  cases operator <;> exact fun _ _ => rfl

namespace Sql

/-! ## Conditions -/

theorem Connective.closed_sql (connective : Connective) : (raw connective.sql).Closed := by
  cases connective <;> exact fun _ _ => rfl

mutual

theorem Condition.closed_render : ∀ condition : Condition, condition.render.Closed
  | .one => fun _ _ => rfl
  | .tautology => fun _ _ => rfl
  | .equal left right => (left.closed_sql.raw_append fun _ _ => rfl).raw_append right.closed_sql
  | .isNull column => column.closed_sql.raw_append fun _ _ => rfl
  | .compare column operator shape value => by
    have hspace : (raw " ").Closed := fun _ _ => rfl
    have hhead := (column.closed_sql.raw_append hspace).raw_append operator.closed_sql
    exact (hhead.raw_append hspace).append (shape.closed_bind value)
  | .junction connective parts =>
    (closed_joined connective.closed_sql (closed_renderAll parts)).parenthesized
  | .not part => by
    have hnot : (raw "NOT ").Closed := fun _ _ => rfl
    exact hnot.append part.closed_render.parenthesized
  | .group part => part.closed_render.parenthesized
  | .existsIn table conditions => by
    have ho : (raw "EXISTS (SELECT 1 FROM ").Nests 0 1 := fun _ _ => rfl
    have hwhere : (raw " WHERE ").Closed := fun _ _ => rfl
    have hhead := (ho.append (table.closed_sql.nests 1)).append (hwhere.nests 1)
    have hand : (raw " AND ").Closed := fun _ _ => rfl
    exact (hhead.append ((closed_joined hand (closed_renderAll conditions)).nests 1)).append
      fun _ _ => rfl

theorem closed_renderAll : ∀ parts : List Condition, ∀ part ∈ renderAll parts, part.Closed
  | [], part, hp => absurd hp List.not_mem_nil
  | first :: parts, part, hp => by
    rcases List.mem_cons.mp hp with rfl | hrest
    · exact first.closed_render
    · exact closed_renderAll parts part hrest

end

theorem closed_conditionClause {keyword : String} (hk : (raw keyword).Closed)
    (conditions : List Condition) : (conditionClause keyword conditions).Closed := by
  rw [conditionClause]
  split
  · exact closed_empty
  · exact hk.append (closed_joined (fun _ _ => rfl) (closed_renderAll conditions))

theorem Join.closed_render (join : Join) : join.render.Closed := by
  have hkeyword : (raw " LEFT JOIN ").Closed := fun _ _ => rfl
  exact (hkeyword.raw_append join.table.closed_sql).append
    (closed_conditionClause (fun _ _ => rfl) join.conditions)

/-! ## Clauses -/

theorem SortColumn.closed_sql (column : SortColumn) : (raw column.sql).Closed := by
  cases column with
  | column ref => exact ref.closed_sql
  | output name => exact closed_ident name

theorem closed_directionClause (direction : Option OrderDirection) :
    (raw (directionClause direction)).Closed := by
  rcases direction with _ | direction
  · exact closed_empty
  · cases direction <;> exact fun _ _ => rfl

theorem SortKey.closed_sql (key : SortKey) : (raw key.sql).Closed :=
  (key.strategy.closed_orderKey key.column.closed_sql).raw_append
    (closed_directionClause key.direction)

theorem closed_orderClause (keys : List SortKey) : (raw (orderClause keys)).Closed := by
  rw [orderClause]
  split
  · exact closed_empty
  · have hkeyword : (raw " ORDER BY ").Closed := fun _ _ => rfl
    apply hkeyword.raw_append
    apply closed_intercalate (fun _ _ => rfl)
    intro text ht
    obtain ⟨key, _, rfl⟩ := List.mem_map.mp ht
    exact key.closed_sql

theorem Page.closed_sql (page : Page) : (raw page.sql).Closed := by
  have hlimit : (raw " LIMIT ").Closed := fun _ _ => rfl
  have hoffset : (raw " OFFSET ").Closed := fun _ _ => rfl
  obtain ⟨limit, offset⟩ := page
  rcases limit with _ | limit <;> rcases offset with _ | offset
  · exact closed_empty
  · exact ((hlimit.raw_append (closed_nat _)).raw_append hoffset).raw_append (closed_nat _)
  · exact hlimit.raw_append (closed_nat _)
  · exact ((hlimit.raw_append (closed_nat _)).raw_append hoffset).raw_append (closed_nat _)

theorem Summary.closed_sql (summary : Summary) : (raw summary.sql).Closed := by
  cases summary with
  | rows => exact fun _ _ => rfl
  | values column distinct =>
    cases distinct <;>
      exact closed_raw_call (fun _ _ => rfl) (fun _ _ => rfl) column.closed_sql
  | function function column => exact function.formula.closed_sql column.closed_sql

theorem closed_groupClause {keys : List Statement} (h : ∀ key ∈ keys, key.Closed) :
    (groupClause keys).Closed := by
  rw [groupClause]
  split
  · exact closed_empty
  · have hkeyword : (raw " GROUP BY ").Closed := fun _ _ => rfl
    exact hkeyword.append (closed_joined (fun _ _ => rfl) h)

theorem closed_namedOutput {value : Statement} (h : value.Closed) (name : Option String) :
    (namedOutput value name).Closed := by
  cases name with
  | none => exact h
  | some name =>
    have hkeyword : (raw " AS ").Closed := fun _ _ => rfl
    exact h.append (hkeyword.raw_append (closed_ident name))

/-! ## Selects -/

mutual

theorem Expr.closed_render : ∀ expr : Expr, expr.render.Closed
  | .projected strategy column => strategy.closed_project column.closed_sql
  | .summary summary => summary.closed_sql
  | .output name => closed_ident name
  | .allOf tableAlias => (closed_ident tableAlias).raw_append fun _ _ => rfl
  | .object [] => fun _ _ => rfl
  | .object (member :: members) =>
    closed_call (fun _ _ => rfl) (fun _ _ => rfl)
      (closed_joined (fun _ _ => rfl) (closed_renderMembers (member :: members)))
  | .array [] => fun _ _ => rfl
  | .array (item :: items) =>
    closed_call (fun _ _ => rfl) (fun _ _ => rfl)
      (closed_joined (fun _ _ => rfl) (closed_renderItems (item :: items)))
  | .collect item order => by
    have ho : (raw "TO_JSON(LIST(").Nests 0 2 := fun _ _ => rfl
    have hc : (raw "))").Nests 2 0 := fun _ _ => rfl
    exact ((ho.append (item.closed_render.nests 2)).append
      ((closed_orderClause order).nests 2)).append hc
  | .coalesce value fallback => by
    have hcomma : (raw ", ").Closed := fun _ _ => rfl
    have ho : (raw "COALESCE(").Nests 0 1 := fun _ _ => rfl
    exact (((ho.append (value.closed_render.nests 1)).append (hcomma.nests 1)).append
      (fallback.closed_render.nests 1)).append fun _ _ => rfl
  | .rowsOf document => closed_call (fun _ _ => rfl) (fun _ _ => rfl) document.closed_render
  | .subquery select => select.closed_render.parenthesized

theorem closed_renderMembers :
    ∀ members : List (String × Expr), ∀ part ∈ renderMembers members, part.Closed
  | [], part, hp => absurd hp List.not_mem_nil
  | (name, value) :: members, part, hp => by
    rcases List.mem_cons.mp hp with rfl | hrest
    · have hcomma : (raw ", ").Closed := fun _ _ => rfl
      exact ((closed_key name).raw_append hcomma).append value.closed_render
    · exact closed_renderMembers members part hrest

theorem closed_renderItems : ∀ items : List Expr, ∀ part ∈ renderItems items, part.Closed
  | [], part, hp => absurd hp List.not_mem_nil
  | item :: items, part, hp => by
    rcases List.mem_cons.mp hp with rfl | hrest
    · exact item.closed_render
    · exact closed_renderItems items part hrest

theorem closed_renderOutputs :
    ∀ outputs : List (Expr × Option String), ∀ part ∈ renderOutputs outputs, part.Closed
  | [], part, hp => absurd hp List.not_mem_nil
  | (value, name) :: outputs, part, hp => by
    rcases List.mem_cons.mp hp with rfl | hrest
    · exact closed_namedOutput value.closed_render name
    · exact closed_renderOutputs outputs part hrest

theorem Source.closed_render : ∀ source : Source, source.render.Closed
  | .nothing => closed_empty
  | .tables table joins => by
    have hkeyword : (raw " FROM ").Closed := fun _ _ => rfl
    apply (hkeyword.raw_append table.closed_sql).append
    apply closed_joined closed_empty
    intro part hp
    obtain ⟨join, _, rfl⟩ := List.mem_map.mp hp
    exact join.closed_render
  | .derived select tableAlias => by
    have ho : (raw " FROM (").Nests 0 1 := fun _ _ => rfl
    have hc : (raw ") AS ").Nests 1 0 := fun _ _ => rfl
    rw [Source.render, raw_append]
    exact (ho.append (select.closed_render.nests 1)).append (hc.append (closed_ident tableAlias))

theorem Select.closed_render : ∀ select : Select, select.render.Closed
  | ⟨outputs, source, conditions, groupBy, orderBy, page⟩ => by
    have hselect : (raw "SELECT ").Closed := fun _ _ => rfl
    have hcomma : (raw ", ").Closed := fun _ _ => rfl
    have hwhere : (raw " WHERE ").Closed := fun _ _ => rfl
    have houtputs := closed_joined hcomma (closed_renderOutputs outputs)
    have hconditions := closed_conditionClause hwhere conditions
    have hgroup := closed_groupClause (closed_renderItems groupBy)
    rw [Select.render]
    exact (((((hselect.append houtputs).append source.closed_render).append
      hconditions).append hgroup).append (closed_orderClause orderBy)).append page.closed_sql

end

theorem Select.closed_renderRoot (select : Select) : select.renderRoot.Closed := by
  have ho : (raw "SELECT CAST(").Nests 0 1 := fun _ _ => rfl
  have hc : (raw " AS VARCHAR) AS data").Nests 1 0 := fun _ _ => rfl
  exact (ho.append (select.closed_render.parenthesized.nests 1)).append hc

end Sql

/-! ## Plans -/

/-- The statements of a plan in the order rows, aggregates, groups. -/
def Plan.statements (plan : Plan) : List Statement :=
  [plan.rows, plan.aggregates, plan.groups].filterMap id

theorem Plan.closed_ofNode (node : Compile.Node) :
    ∀ statement ∈ (Plan.ofNode node).statements, statement.Closed := by
  intro statement hs
  obtain ⟨member, hm, hsome⟩ := List.mem_filterMap.mp hs
  obtain ⟨select, rfl⟩ : ∃ select : Sql.Select, statement = select.renderRoot := by
    simp only [ofNode, List.mem_cons, List.not_mem_nil, or_false, id_eq] at hm hsome
    rcases hm with rfl | rfl | rfl <;>
      exact (Option.map_eq_some_iff.mp hsome).imp fun _ h => h.2.symm
  exact select.closed_renderRoot

/-- Whatever names the schema and the request hold, the statements of a plan and the statement of
a filter end outside quotes, balance their parentheses, and have a placeholder for each value. -/
theorem compiled_statements_lexically_closed :
    (∀ (schema : Schema) (request : Request) (bindings : VariableSet) (plan : Plan),
      request.compile schema bindings = .ok plan →
        ∀ statement ∈ plan.statements, statement.LexicallyClosed) ∧
    (∀ (context : Compile.Context) (scope : Compile.Scope) (filter : Expression)
      (condition : Sql.Condition),
      Compile.predicate context scope filter = .ok condition →
        condition.render.LexicallyClosed) := by
  constructor
  · intro schema request bindings plan h statement hs
    obtain ⟨node, -, rfl⟩ := Compile.compile_eq_ok.mp h
    exact (Plan.closed_ofNode node statement hs).lexicallyClosed
  · intro context scope filter condition _
    exact condition.closed_render.lexicallyClosed

/-- A collection whose names hold quotes, parentheses, dots and question marks. -/
def awkwardSchema : Schema :=
  Schema.empty.registerColumns "it's" "main.a\"b?).c"
    [("(x", .named "BigInt"), ("?\"'", .named "Int")]

/-- A request for rows, aggregates and groups of that collection and of its own rows again. -/
def awkwardRequest : Request where
  collection := "it's"
  query :=
    { fields := some [("'?", .column "(x"), ("\")", .relationship "r" ⟨some [("(", .column "(x")],
        none, none, some 2, none, none, none⟩)]
      aggregates := some [("n'(", .singleColumn "?\"'" "_stddev")]
      limit := some 10
      offset := none
      orderBy := none
      predicate := some (.existsIn (.related "r")
        (some (.binary (.column "(x" []) "_eq" (.scalar (.string "?'\"")))))
      groups := some ⟨[.column "(x" []], [("?", .starCount)], none, none, none, none⟩ }
  relationships := [("r", ⟨[("(x", "?\"'")], .array, "it's"⟩)]
  bindings := none

theorem awkward_statements_lexically_closed :
    (∃ plan, awkwardRequest.compile awkwardSchema [] = .ok plan ∧ plan.statements.length = 3 ∧
      ∀ statement ∈ plan.statements, statement.LexicallyClosed) ∧
    ∃ condition, Compile.predicate ⟨awkwardSchema, awkwardRequest.relationships, []⟩
        ⟨"it's", "?)"⟩ (.not (.unary (.column "(x" []) .isNull)) = .ok condition ∧
      condition.render.LexicallyClosed := by
  constructor
  · have hplan : awkwardRequest.compile awkwardSchema [] = .ok _ := rfl
    exact ⟨_, hplan, rfl, compiled_statements_lexically_closed.1 _ _ _ _ hplan⟩
  · have hcondition : Compile.predicate ⟨awkwardSchema, awkwardRequest.relationships, []⟩
        ⟨"it's", "?)"⟩ (.not (.unary (.column "(x" []) .isNull)) = .ok _ := rfl
    exact ⟨_, hcondition, compiled_statements_lexically_closed.2 _ _ _ _ hcondition⟩

end NestedSql
