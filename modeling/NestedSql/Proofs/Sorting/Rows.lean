import Mathlib.Data.List.Nodup
import NestedSql.Proofs.Ordering.OwnJoins
import NestedSql.Proofs.Projection.Leaves
import NestedSql.Proofs.Sorting.Keys
import NestedSql.Proofs.Sorting.Levels

/-!
# Rows in the requested order

The rows of a level are paged inside by the sort keys that its query asks for. The sorted columns
are given out under numbered names, and the rows are collected outside by the same keys over these
names. So the keys inside and outside compare rows alike, whatever the columns are worth and however
they compare, and the page is collected in the order in which it was taken.
-/

namespace NestedSql

/-- The sort keys that a query asks for. -/
def Query.sortElements (query : Query) : List OrderByElement :=
  match query.orderBy with
  | none => []
  | some orderBy => orderBy.elements

namespace Compile

open Sql (ColumnRef Expr Select SortKey SortedBy Valuation collected collected_page compareBy
  compareBy_give forall₂_numbered)

variable {context : Context} {scope : Scope}

/-! ## Keys of an order -/

/-- The key sorts by the column that the element names at the end of its path, under the strategy of
the declared type and in the direction of the element. -/
def KeyFor (context : Context) (scope : Scope) (element : OrderByElement) (key : SortKey) : Prop :=
  ∃ name path target type strategy, element.target = .column name path ∧
    pathScope context scope path = some target ∧
    context.columnType? target.collection name = some type ∧
    classify type .ordering = .ok strategy ∧
    key = ⟨.column (target.column name), strategy, some element.direction⟩

theorem followPath_spec {ordering next : Ordering} {path : List PathElement} {target : Scope}
    (h : followPath context scope ordering path = .ok (target, next)) :
    pathScope context scope path = some target ∧ next.keys = ordering.keys := by
  have hstep : ∀ taken (state : Scope × Ordering) hop (later : Scope × Ordering),
      followHop context state hop = .ok later →
      (pathScope context scope taken = some state.1 ∧ state.2.keys = ordering.keys) →
      pathScope context scope (taken ++ [hop]) = some later.1 ∧
        later.2.keys = ordering.keys := by
    rintro taken ⟨source, before⟩ hop ⟨target, after⟩ hhop ⟨hsource, hkeys⟩
    obtain ⟨htarget, hsame, -⟩ := followHop_spec hhop
    rw [pathScope_concat, hsource]
    exact ⟨htarget, hsame.trans hkeys⟩
  have hstart : pathScope context scope [] = some scope ∧ ordering.keys = ordering.keys :=
    ⟨rfl, rfl⟩
  exact foldlM_taken hstep path h hstart

theorem addElement_keyFor {ordering next : Ordering} {element : OrderByElement}
    (h : addElement context scope ordering element = .ok next) :
    ∃ key, KeyFor context scope element key ∧ next.keys = ordering.keys ++ [key] := by
  obtain ⟨direction, target⟩ := element
  cases target with
  | column name path =>
    obtain ⟨⟨target, joined⟩, hpath, type, htype, strategy, hstrategy, rfl⟩ :=
      addElement_column_eq_ok.mp h
    obtain ⟨htarget, hkeys⟩ := followPath_spec hpath
    exact ⟨_, ⟨name, path, target, type, strategy, rfl, htarget, htype, hstrategy, rfl⟩,
      congrArg (· ++ _) hkeys⟩
  | singleColumnAggregate column function path => exact absurd h throw_ne_ok
  | starCountAggregate path => exact absurd h throw_ne_ok

/-- An order has one key for each of its elements. -/
theorem ordering_keyFor {query : Query} {result : Ordering}
    (h : ordering context scope query.orderBy = .ok result) :
    List.Forall₂ (KeyFor context scope) query.sortElements result.keys := by
  rw [Query.sortElements]
  cases horder : query.orderBy with
  | none =>
    rw [horder] at h
    obtain rfl := pure_eq_ok.mp h
    exact .nil
  | some orderBy =>
    rw [horder] at h
    have hstep : ∀ taken state element next, addElement context scope state element = .ok next →
        List.Forall₂ (KeyFor context scope) taken state.keys →
          List.Forall₂ (KeyFor context scope) (taken ++ [element]) next.keys := by
      intro taken state element next hadded htaken
      obtain ⟨key, hkey, hkeys⟩ := addElement_keyFor hadded
      rw [hkeys]
      exact List.rel_append htaken (.cons hkey .nil)
    exact foldlM_taken hstep orderBy.elements h .nil

theorem column_of_keyFor {elements : List OrderByElement} {keys : List SortKey}
    (h : List.Forall₂ (KeyFor context scope) elements keys) :
    ∀ key ∈ keys, ∃ ref, key.column = .column ref := by
  induction h with
  | nil => exact List.forall_mem_nil _
  | cons hkey _ ih =>
    obtain ⟨name, path, target, type, strategy, -, -, -, -, rfl⟩ := hkey
    exact List.forall_mem_cons.mpr ⟨⟨_, rfl⟩, ih⟩

/-! ## Statements of rows -/

/-- What a statement of rows is made of: the row, the select inside, the sorted columns that it
gives out besides, and the keys outside. -/
structure RowsStatement where
  row : Expr
  inner : Select
  repeated : List (Expr × Option String)
  listed : List SortKey

/-- The rows collected from the select inside. -/
def RowsStatement.select (statement : RowsStatement) : Select :=
  .single (.object [("rows", arrayOf (.output "r") statement.listed)])
    (.derived statement.inner "rows")

/-- The statement pages the rows of a query by the keys that it asks for, and collects them by the
same keys. -/
structure KeepsOrder (context : Context) (scope : Scope) (query : Query)
    (statement : RowsStatement) : Prop where
  requested : List.Forall₂ (KeyFor context scope) query.sortElements statement.inner.orderBy
  outputs : statement.inner.outputs = (statement.row, some "r") :: statement.repeated
  lengths : statement.inner.orderBy.length = query.sortElements.length ∧
    statement.repeated.length = query.sortElements.length ∧
    statement.listed.length = query.sortElements.length
  keys : ∀ {i : Nat} {key : SortKey}, statement.inner.orderBy[i]? = some key →
    ∃ ref, key.column = .column ref ∧
      statement.repeated[i]? = some (.projected .plainColumn ref, some (sortName i)) ∧
      statement.listed[i]? = some ⟨.output (sortName i), key.strategy, key.direction⟩
  names : (statement.inner.outputs.map Prod.snd).Nodup
  page : statement.inner.page = ⟨query.limit, query.offset⟩
  preorder : ∀ {Row Value : Type} (valuation : Valuation Row Value) (first second : Row),
    compareBy (SortKey.compareGiven valuation statement.inner) statement.listed
        (statement.inner.give valuation first) (statement.inner.give valuation second) =
      compareBy (SortKey.compareRows valuation statement.inner) statement.inner.orderBy
        first second
  listing : ∀ {Row Value : Type} (valuation : Valuation Row Value) (rows : List Row),
    SortedBy (compareBy (SortKey.compareRows valuation statement.inner) statement.inner.orderBy)
      rows →
    collected valuation statement.inner "r" statement.listed
        ((statement.inner.page.window rows).map (statement.inner.give valuation)) =
      (statement.inner.page.window rows).map fun row => some (valuation.value statement.row row)

/-- The parts of the select of some rows. -/
def Rows.statement (rows : Rows) (row : Expr) : RowsStatement where
  row := row
  inner := ⟨(row, some "r") :: rows.ordering.keys.mapIdx sortOutput,
    .tables rows.table rows.ordering.joins, rows.conditions, [], rows.ordering.keys, rows.page⟩
  repeated := rows.ordering.keys.mapIdx sortOutput
  listed := outerKeys rows.ordering.keys

theorem select_statement (rows : Rows) (row : Expr) :
    (rows.statement row).select = rowsSelect rows row := rfl

/-! ## Names of sorted columns -/

theorem sortName_ne_row (i : Nat) : sortName i ≠ "r" := by
  intro h
  have hletters : ("o" ++ toString i).toList = "r".toList := congrArg String.toList h
  rw [String.toList_append] at hletters
  have hfirst : 'o' = 'r' := (List.cons.inj hletters).1
  exact absurd hfirst (by decide)

theorem sortOutput_snd (i : Nat) (key : SortKey) : (sortOutput i key).2 = some (sortName i) := by
  rw [sortOutput]
  cases key.column <;> rfl

/-- The row and the sorted columns have names of their own. -/
theorem nodup_statement_names (rows : Rows) (row : Expr) :
    ((rows.statement row).inner.outputs.map Prod.snd).Nodup := by
  have hnames : (rows.ordering.keys.mapIdx sortOutput).map Prod.snd =
      ((rows.ordering.keys.mapIdx fun i key => (sortName i, key)).map Prod.fst).map some :=
    List.ext_getElem (by simp) fun i _ _ => by simp [sortOutput_snd]
  rw [Rows.statement, List.map_cons, hnames, List.nodup_cons]
  constructor
  · simp only [List.mem_map, List.mem_mapIdx]
    rintro ⟨_, ⟨_, ⟨i, _, rfl⟩, rfl⟩, h⟩
    exact sortName_ne_row i (Option.some.inj h)
  · exact List.Nodup.map (fun _ _ => Option.some.inj)
      (distinct_numbered "o" id rows.ordering.keys)

theorem repeated_of_key {keys : List SortKey} {i : Nat} {key : SortKey} (hkey : keys[i]? = some key)
    {ref : ColumnRef} (href : key.column = .column ref) :
    (keys.mapIdx sortOutput)[i]? = some (.projected .plainColumn ref, some (sortName i)) := by
  rw [List.getElem?_mapIdx, hkey, Option.map_some, sortOutput, href]

/-- The key outside that numbers a key inside names the column of this key. -/
theorem outerKey_follows (rows : Rows) (row : Expr) {i : Nat} {key : SortKey}
    (hkey : rows.ordering.keys[i]? = some key) {ref : ColumnRef} (href : key.column = .column ref) :
    SortKey.Follows (rows.statement row).inner { key with column := .output (sortName i) } key := by
  have hrepeated := List.mem_of_getElem? (repeated_of_key hkey href)
  have hname := Select.output?_of_mem (nodup_statement_names rows row)
    (List.mem_cons_of_mem _ hrepeated)
  refine ⟨⟨_, rfl⟩, hname.trans ?_, rfl, rfl⟩
  rw [SortKey.subject?, href]

theorem rows_keepsOrder {query : Query} (rows : Rows) (row : Expr)
    (hkeys : ordering context scope query.orderBy = .ok rows.ordering)
    (hpage : rows.page = ⟨query.limit, query.offset⟩) :
    KeepsOrder context scope query (rows.statement row) := by
  have hrequested := ordering_keyFor hkeys
  have hlength := hrequested.length_eq.symm
  -- a key inside is a column and never a name, so an output repeats it
  have hcolumn : ∀ {i : Nat} {key : SortKey}, rows.ordering.keys[i]? = some key →
      ∃ ref, key.column = .column ref :=
    fun hkey => column_of_keyFor hrequested _ (List.mem_of_getElem? hkey)
  have hfollow : List.Forall₂ (SortKey.Follows (rows.statement row).inner)
      (rows.statement row).listed (rows.statement row).inner.orderBy := by
    refine forall₂_numbered fun i key hkey => ?_
    obtain ⟨ref, href⟩ := hcolumn hkey
    exact outerKey_follows rows row hkey href
  constructor
  case requested => exact hrequested
  case outputs => rfl
  case lengths =>
    exact ⟨hlength, List.length_mapIdx.trans hlength, List.length_mapIdx.trans hlength⟩
  case keys =>
    intro i key hkey
    obtain ⟨ref, href⟩ := hcolumn hkey
    refine ⟨ref, href, repeated_of_key hkey href, ?_⟩
    exact List.getElem?_mapIdx.trans (congrArg (Option.map _) hkey)
  case names => exact nodup_statement_names rows row
  case page => exact hpage
  case preorder =>
    intro Row Value valuation first second
    exact compareBy_give hfollow first second
  case listing =>
    have hrow := Select.output?_of_mem (nodup_statement_names rows row) List.mem_cons_self
    intro Row Value valuation taken hsorted
    exact collected_page hfollow hrow hsorted

/-! ## Statements of levels -/

/-- The rows of a level, if it has fields, are a statement that keeps the order of its query. -/
theorem Level.rows_statement {level : Level} {result : Node}
    (h : level.node context = .ok result) :
    (level.query.fields.isSome = true → ∃ statement : RowsStatement,
      result.rows = some statement.select ∧
        KeepsOrder context level.scope level.query statement) ∧
    ∀ select, result.rows = some select → ∃ statement : RowsStatement,
      select = statement.select ∧ KeepsOrder context level.scope level.query statement := by
  obtain ⟨rows, row, -, hordering, hpage, hrow, hrows, -, -⟩ := level.node_parts h
  constructor
  · intro hfields
    obtain ⟨fields, hfields⟩ := Option.isSome_iff_exists.mp hfields
    rw [hfields] at hrow
    obtain ⟨members, -, rfl⟩ := rowObject_some_eq_ok.mp hrow
    refine ⟨rows.statement (.object members), ?_, rows_keepsOrder rows _ hordering hpage⟩
    rw [hrows, Option.map_some, select_statement]
  · intro select hselect
    rw [hrows, Option.map_eq_some_iff] at hselect
    obtain ⟨value, -, rfl⟩ := hselect
    exact ⟨rows.statement value, (select_statement rows value).symm,
      rows_keepsOrder rows value hordering hpage⟩

/-- Every level with fields has a statement of rows in what its request compiles to, every statement
of rows there is that of a level, and each keeps the order that its query asks for. -/
theorem rows_keep_requested_order {schema : Schema} {request : Request} {bindings : VariableSet}
    {plan : Plan} (h : request.compile schema bindings = .ok plan) :
    ∃ result, root ⟨schema, request.relationships, bindings⟩ request.collection request.query =
        .ok result ∧ Plan.ofNode result = plan ∧
      (∀ level : Level,
        request.level.Reaches ⟨schema, request.relationships, bindings⟩ level →
          level.query.fields.isSome = true → ∃ statement : RowsStatement,
            statement.select ∈ result.derivations ∧
              KeepsOrder ⟨schema, request.relationships, bindings⟩ level.scope level.query
                statement) ∧
      ∀ select ∈ result.derivations, ∀ inner, select.source = .derived inner "rows" →
        ∃ (level : Level) (statement : RowsStatement),
          request.level.Reaches ⟨schema, request.relationships, bindings⟩ level ∧
            select = statement.select ∧
              KeepsOrder ⟨schema, request.relationships, bindings⟩ level.scope level.query
                statement := by
  obtain ⟨result, hroot, hplan, hstand, honly⟩ := compile_levels h
  refine ⟨result, hroot, hplan, fun level hreach hfields => ?listed, ?only⟩
  case listed =>
    obtain ⟨child, hchild, hselects⟩ := hstand level hreach
    obtain ⟨statement, hrows, hkeeps⟩ := (level.rows_statement hchild).1 hfields
    exact ⟨statement, hselects _ (Node.mem_selects.mpr (.inl hrows)) ⟨_, _, rfl⟩, hkeeps⟩
  case only =>
    intro select hselect inner hsource
    obtain ⟨level, child, hreach, hchild, hmem⟩ := honly select hselect
    obtain ⟨-, haggregates, hgroups⟩ := level.selects_sources hchild hsource
    rcases Node.mem_selects.mp hmem with hpart | hpart | hpart
    · obtain ⟨statement, rfl, hkeeps⟩ := (level.rows_statement hchild).2 select hpart
      exact ⟨level, statement, hreach, rfl, hkeeps⟩
    · exact absurd (haggregates hpart) (by decide)
    · exact absurd (hgroups hpart) (by decide)

/-- The latest orders of a user, after those of buyers whose names come first. -/
def latestOrders : Query where
  fields := some [("id", .column "id")]
  aggregates := none
  limit := some 3
  offset := some 1
  orderBy := some ⟨[⟨.asc, .column "name" [⟨"buyer", none⟩]⟩, ⟨.desc, .column "id" []⟩]⟩
  predicate := none
  groups := none

/-- Two users with their latest orders, the last names first. -/
def buyersRequest : Request where
  collection := "users"
  query := ⟨some [("name", .column "name"), ("orders", .relationship "bought" latestOrders)], none,
    some 2, none, some ⟨[⟨.desc, .column "name" []⟩]⟩, none, none⟩
  relationships := ("bought", ⟨[("id", "buyer_id")], .array, "orders"⟩) ::
    tradeContext.relationships
  bindings := none

theorem latest_orders_keep_requested_order :
    ∃ plan result, buyersRequest.compile tradeContext.schema [] = .ok plan ∧
      Plan.ofNode result = plan ∧
      (∃ statement : RowsStatement, statement.select ∈ result.derivations ∧
        KeepsOrder ⟨tradeContext.schema, buyersRequest.relationships, []⟩ ⟨"users", "users"⟩
          buyersRequest.query statement) ∧
      ∃ statement : RowsStatement, statement.select ∈ result.derivations ∧
        KeepsOrder ⟨tradeContext.schema, buyersRequest.relationships, []⟩
          ⟨"orders", "users_orders"⟩ latestOrders statement := by
  have hcompiled : buyersRequest.compile tradeContext.schema [] = .ok _ := rfl
  obtain ⟨result, -, hplan, hlevels, -⟩ := rows_keep_requested_order hcompiled
  have hasks : buyersRequest.level.Asks
      ⟨tradeContext.schema, buyersRequest.relationships, []⟩
      (buyersRequest.level.inside ⟨[("id", "buyer_id")], .array, "orders"⟩ latestOrders) :=
    ⟨_, "orders", "bought", latestOrders, _, rfl,
      List.mem_cons_of_mem _ List.mem_cons_self, rfl, rfl⟩
  exact ⟨_, result, hcompiled, hplan, hlevels _ .refl rfl, hlevels _ (.single hasks) rfl⟩

end Compile

end NestedSql
