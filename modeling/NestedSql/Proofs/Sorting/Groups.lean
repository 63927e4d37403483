import Mathlib.Data.List.Nodup
import NestedSql.Proofs.Projection.WideIntegers
import NestedSql.Proofs.Sorting.Keys
import NestedSql.Proofs.Sorting.Levels

/-!
# The order of groups

The groups of a level are paged inside and collected outside by the names of their dimensions, so a
sort key stands for what a dimension is given out as. A dimension of wide integers is given out as a
cast to text, and its groups are sorted and paged by these texts: 10 comes before 9. All other
integers sort as numbers.
-/

namespace NestedSql

namespace Sql

/-! ## Integers and their texts -/

/-- An integer, or a text. -/
inductive Datum where
  | integer (value : Int)
  | text (value : String)
deriving DecidableEq, Repr

/-- Columns of integers, their casts to text and what these compare as. No other expressions have
values of their own. -/
def integers {Row : Type} (columns : Row → ColumnRef → Int) : Valuation Row Datum where
  value expr row :=
    match expr with
    | .projected .castAsText ref => .text (toString (columns row ref))
    | .projected _ ref => .integer (columns row ref)
    | _ => .integer 0
  compare _ _ first second :=
    match first, second with
    | .integer first, .integer second => Ord.compare first second
    | .text first, .text second => Ord.compare first second
    | _, _ => .eq

/-- The key compares the integers of a column. -/
def SortKey.OrdersAsIntegers (select : Select) (key : SortKey) (ref : ColumnRef) : Prop :=
  ∀ (Row : Type) (columns : Row → ColumnRef → Int) (first second : Row),
    key.compareRows (integers columns) select first second =
      compare (columns first ref) (columns second ref)

/-- The key compares the integers of a column by their decimal texts. -/
def SortKey.OrdersAsTexts (select : Select) (key : SortKey) (ref : ColumnRef) : Prop :=
  ∀ (Row : Type) (columns : Row → ColumnRef → Int) (first second : Row),
    key.compareRows (integers columns) select first second =
      compare (toString (columns first ref)) (toString (columns second ref))

variable {select : Select} {key : SortKey} {ref : ColumnRef}

theorem ordersAsIntegers_of_plain
    (hsubject : key.subject? select = some (.projected .plainColumn ref))
    (hdirection : key.direction = none) : key.OrdersAsIntegers select ref := by
  intro Row columns first second
  rw [SortKey.compareRows, hsubject, hdirection]
  rfl

theorem ordersAsTexts_of_cast (hsubject : key.subject? select = some (.projected .castAsText ref))
    (hdirection : key.direction = none) : key.OrdersAsTexts select ref := by
  intro Row columns first second
  rw [SortKey.compareRows, hsubject, hdirection]
  rfl

/-- Texts put 10 before 9. -/
theorem SortKey.OrdersAsTexts.not_integers (h : key.OrdersAsTexts select ref) :
    ¬key.OrdersAsIntegers select ref := by
  intro hintegers
  have htexts := h Int (fun row _ => row) 9 10
  rw [hintegers] at htexts
  exact absurd htexts (by decide)

end Sql

namespace Compile

open Sql (Condition Expr Page Select SortKey Summary Table Valuation compareBy compareBy_give
  forall₂_numbered)

variable {context : Context} {scope : Scope}

/-! ## Statements of groups -/

/-- What a statement of groups is made of: the document of a group, the select inside, and the keys
outside. -/
structure GroupsStatement where
  group : Expr
  inner : Select
  listed : List SortKey

/-- The groups collected from the select inside. -/
def GroupsStatement.select (statement : GroupsStatement) : Select :=
  .single (arrayOf statement.group statement.listed) (.derived statement.inner "groups")

/-- The key stands for the dimension as it is given out, in ascending order. -/
def DimensionKey (context : Context) (scope : Scope) (inner : Select) (entry : Dimension)
    (key : SortKey) : Prop :=
  ∃ name value, entry = .column name [] ∧ Places context (.column scope name) value ∧
    key.subject? inner = some value ∧ key.direction = none

/-- The statement pages the groups of a grouping by its dimensions and collects them by the same
keys. A key orders as integers exactly if the column of its dimension is not wide, and as texts if
it is. -/
structure OrdersGroups (context : Context) (scope : Scope) (grouping : Grouping)
    (statement : GroupsStatement) : Prop where
  keys : List.Forall₂ (DimensionKey context scope statement.inner) grouping.dimensions
    statement.inner.orderBy
  names : (statement.inner.outputs.map Prod.snd).Nodup
  listed : statement.listed = statement.inner.orderBy
  page : statement.inner.page = ⟨grouping.limit, grouping.offset⟩
  preorder : ∀ {Row Value : Type} (valuation : Valuation Row Value) (first second : Row),
    compareBy (SortKey.compareGiven valuation statement.inner) statement.listed
        (statement.inner.give valuation first) (statement.inner.give valuation second) =
      compareBy (SortKey.compareRows valuation statement.inner) statement.inner.orderBy
        first second
  integers : ∀ {i : Nat} {name : String} {key : SortKey},
    grouping.dimensions[i]? = some (.column name []) → statement.inner.orderBy[i]? = some key →
      (key.OrdersAsIntegers statement.inner (scope.column name) ↔
        ¬context.Wide scope.collection name) ∧
      (context.Wide scope.collection name →
        key.OrdersAsTexts statement.inner (scope.column name))

/-- The parts of the select of some groups. -/
def groupsStatement (table : Table) (conditions : List Condition) (page : Page)
    (dimensions : List Expr) (outputs : List (String × Summary)) : GroupsStatement :=
  let named := dimensions.mapIdx (fun i value => (value, some (dimensionName i))) ++
    outputs.mapIdx (fun i output => (.summary output.2, some (aggregateName i)))
  let order : List SortKey :=
    dimensions.mapIdx fun i _ => ⟨.output (dimensionName i), .plainColumn, none⟩
  { group := .object
      [("dimensions", .array (dimensions.mapIdx fun i _ => .output (dimensionName i))),
        ("aggregates",
          .object (outputs.mapIdx fun i output => (output.1, .output (aggregateName i))))]
    inner := ⟨if named.isEmpty then [(.summary .rows, some "n")] else named, .tables table [],
      conditions, dimensions, order, page⟩
    listed := order }

theorem select_groupsStatement (table : Table) (conditions : List Condition) (page : Page)
    (dimensions : List Expr) (outputs : List (String × Summary)) :
    (groupsStatement table conditions page dimensions outputs).select =
      groupsSelect table conditions page dimensions outputs := rfl

/-! ## Keys and dimensions -/

/-- A column that is placed is a cast exactly if its integers are wide. -/
theorem Places.column_spec {name : String} {value : Expr}
    (h : Places context (.column scope name) value) :
    (context.Wide scope.collection name ∧
        value = .projected .castAsText (scope.column name)) ∨
      (¬context.Wide scope.collection name ∧
        value = .projected .plainColumn (scope.column name)) := by
  cases h with
  | @column _ _ type scalar htype hscalar =>
    cases hwide : scalar.wide? with
    | some integer =>
      left
      cases scalar with
      | wide integer => exact ⟨⟨type, integer, htype, hscalar⟩, rfl⟩
      | _ => cases hwide
    | none =>
      right
      refine ⟨?_, rfl⟩
      rintro ⟨other, integer, hother, hinteger⟩
      obtain rfl := Option.some.inj (htype.symm.trans hother)
      obtain rfl := Option.some.inj (hscalar.symm.trans hinteger)
      cases hwide

theorem DimensionKey.orders {inner : Select} {name : String} {key : SortKey}
    (h : DimensionKey context scope inner (.column name []) key) :
    (key.OrdersAsIntegers inner (scope.column name) ↔ ¬context.Wide scope.collection name) ∧
      (context.Wide scope.collection name → key.OrdersAsTexts inner (scope.column name)) := by
  obtain ⟨_, value, heq, hplaces, hsubject, hdirection⟩ := h
  cases heq
  obtain ⟨hwide, rfl⟩ | ⟨hnarrow, rfl⟩ := hplaces.column_spec
  · have htexts := Sql.ordersAsTexts_of_cast hsubject hdirection
    exact ⟨iff_of_false htexts.not_integers fun hnarrow => hnarrow hwide, fun _ => htexts⟩
  · have hintegers := Sql.ordersAsIntegers_of_plain hsubject hdirection
    exact ⟨iff_of_true hintegers hnarrow, fun hwide => absurd hwide hnarrow⟩

theorem dimensions_place {entries : List Dimension} {values : List Expr}
    (h : entries.mapM (dimension context scope) = .ok values) :
    List.Forall₂ (fun entry value => ∃ name, entry = .column name [] ∧
      Places context (.column scope name) value) entries values := by
  induction entries generalizing values with
  | nil =>
    obtain rfl := pure_eq_ok.mp h
    exact .nil
  | cons entry entries ih =>
    obtain ⟨value, hvalue, others, hothers, rfl⟩ := mapM_cons_eq_ok.mp h
    obtain ⟨name, rfl, type, htype, strategy, hstrategy, rfl⟩ := dimension_eq_ok.mp hvalue
    exact .cons ⟨name, rfl, placed_column htype hstrategy⟩ (ih hothers)

section Statement

variable (table : Table) (conditions : List Condition) (page : Page) (dimensions : List Expr)
  (outputs : List (String × Summary))

/-- Dimensions and aggregates have names of their own. -/
theorem nodup_groupsStatement_names :
    ((groupsStatement table conditions page dimensions outputs).inner.outputs.map
      Prod.snd).Nodup := by
  have hnames : (dimensions.mapIdx (fun i value => (value, some (dimensionName i))) ++
      outputs.mapIdx (fun i output => (Expr.summary output.2, some (aggregateName i)))).map
        Prod.snd = (Entries.names (groupEntries dimensions outputs)).map some := by
    rw [groupEntries, Entries.names, List.map_append, List.map_append, List.map_append]
    exact congrArg₂ (· ++ ·) (List.ext_getElem (by simp) fun i _ _ => by simp)
      (List.ext_getElem (by simp) fun i _ _ => by simp)
  rw [groupsStatement]
  dsimp only
  split
  · exact List.nodup_singleton _
  · rw [hnames]
    exact List.Nodup.map (fun _ _ => Option.some.inj) (distinct_groupEntries dimensions outputs)

theorem output?_numbered {name : String} {value : Expr}
    (hmem : (value, some name) ∈
      dimensions.mapIdx (fun i value => (value, some (dimensionName i))) ++
        outputs.mapIdx (fun i output => (Expr.summary output.2, some (aggregateName i)))) :
    (groupsStatement table conditions page dimensions outputs).inner.output? name = some value := by
  have hnames := nodup_groupsStatement_names table conditions page dimensions outputs
  refine Select.output?_of_mem hnames ?_
  rw [groupsStatement]
  dsimp only
  -- where there is a column, nothing stands in for missing outputs
  rw [if_neg (mt List.isEmpty_iff.mp (List.ne_nil_of_mem hmem))]
  exact hmem

/-- A numbered key stands for the dimension of its number. -/
theorem output?_dimensionName {i : Nat} {value : Expr} (hvalue : dimensions[i]? = some value) :
    (groupsStatement table conditions page dimensions outputs).inner.output? (dimensionName i) =
      some value := by
  refine output?_numbered table conditions page dimensions outputs (List.mem_append_left _ ?_)
  apply List.mem_of_getElem? (i := i)
  rw [List.getElem?_mapIdx, hvalue, Option.map_some]

theorem output?_aggregateName {i : Nat} {output : String × Summary}
    (houtput : outputs[i]? = some output) :
    (groupsStatement table conditions page dimensions outputs).inner.output? (aggregateName i) =
      some (.summary output.2) := by
  refine output?_numbered table conditions page dimensions outputs (List.mem_append_right _ ?_)
  apply List.mem_of_getElem? (i := i)
  rw [List.getElem?_mapIdx, houtput, Option.map_some]

end Statement

/-- Lists that are related to one list item by item are related to each other. -/
theorem forall₂_through {α β γ : Type} {first : α → β → Prop} {second : γ → β → Prop}
    {as : List α} {bs : List β} {cs : List γ} (h : List.Forall₂ first as bs)
    (hother : List.Forall₂ second cs bs) :
    List.Forall₂ (fun a c => ∃ b, first a b ∧ second c b) as cs := by
  induction h generalizing cs with
  | nil =>
    cases hother
    exact .nil
  | cons hfirst _ ih =>
    cases hother with
    | cons hsecond hrest => exact .cons ⟨_, hfirst, hsecond⟩ (ih hrest)

theorem groupsStatement_keys {grouping : Grouping} (table : Table) (conditions : List Condition)
    (page : Page) {dimensions : List Expr} (outputs : List (String × Summary))
    (hdimensions : grouping.dimensions.mapM (dimension context scope) = .ok dimensions) :
    List.Forall₂
      (DimensionKey context scope (groupsStatement table conditions page dimensions outputs).inner)
      grouping.dimensions
      (groupsStatement table conditions page dimensions outputs).inner.orderBy := by
  have hnumbered : List.Forall₂ (fun (key : SortKey) value => key.subject?
      (groupsStatement table conditions page dimensions outputs).inner = some value ∧
        key.direction = none)
      (groupsStatement table conditions page dimensions outputs).inner.orderBy dimensions :=
    forall₂_numbered fun i value hvalue =>
      ⟨output?_dimensionName table conditions page dimensions outputs hvalue, rfl⟩
  refine (forall₂_through (dimensions_place hdimensions) hnumbered).imp ?_
  rintro entry key ⟨value, ⟨name, hname, hplaces⟩, hsubject, hdirection⟩
  exact ⟨name, value, hname, hplaces, hsubject, hdirection⟩

theorem groupsStatement_ordersGroups {grouping : Grouping} (table : Table)
    (conditions : List Condition) {dimensions : List Expr} (outputs : List (String × Summary))
    (hdimensions : grouping.dimensions.mapM (dimension context scope) = .ok dimensions) :
    OrdersGroups context scope grouping
      (groupsStatement table conditions ⟨grouping.limit, grouping.offset⟩ dimensions outputs) := by
  have hkeys := groupsStatement_keys table conditions ⟨grouping.limit, grouping.offset⟩ outputs
    hdimensions
  constructor
  case keys => exact hkeys
  case names => exact nodup_groupsStatement_names _ _ _ _ _
  case listed => rfl
  case page => rfl
  case preorder =>
    intro Row Value valuation first second
    refine compareBy_give (List.forall₂_same.mpr fun key hkey => ?_) first second
    obtain ⟨i, _, rfl⟩ := List.mem_mapIdx.mp hkey
    exact ⟨⟨_, rfl⟩, rfl, rfl, rfl⟩
  case integers =>
    intro i name key hentry hkey
    obtain ⟨hi, hentry⟩ := List.getElem?_eq_some_iff.mp hentry
    obtain ⟨hj, rfl⟩ := List.getElem?_eq_some_iff.mp hkey
    have hdimension := hkeys.get hi hj
    rw [List.get_eq_getElem, List.get_eq_getElem, hentry] at hdimension
    exact hdimension.orders

/-! ## Groups of levels -/

/-- The groups of a level, if it has a grouping, are a statement in the order of its dimensions. -/
theorem Level.groups_statement {level : Level} {result : Node}
    (h : level.node context = .ok result) :
    (∀ grouping, level.query.groups = some grouping → ∃ statement : GroupsStatement,
      result.groups = some statement.select ∧
        OrdersGroups context level.scope grouping statement) ∧
    ∀ select, result.groups = some select → ∃ grouping,
      level.query.groups = some grouping ∧ ∃ statement : GroupsStatement,
        select = statement.select ∧ OrdersGroups context level.scope grouping statement := by
  obtain ⟨rows, row, -, -, -, -, -, -, hgrouped⟩ := level.node_parts h
  obtain ⟨hnone, hpart⟩ | ⟨grouping, dimensions, outputs, hsome, hdimensions, -, hpart⟩ :=
    groupsPart_eq_ok.mp hgrouped
  · rw [hnone, hpart]
    exact ⟨nofun, nofun⟩
  · have horders := groupsStatement_ordersGroups rows.table rows.conditions outputs hdimensions
    rw [hsome, hpart, ← select_groupsStatement]
    constructor
    · rintro _ ⟨⟩
      exact ⟨_, rfl, horders⟩
    · rintro _ ⟨⟩
      exact ⟨grouping, rfl, _, rfl, horders⟩

/-- Every level with a grouping has a statement of groups in what its request compiles to, every
statement of groups there is that of a level, and each sorts and pages its groups by the dimensions:
by integers exactly if they are not wide, and by their texts if they are. -/
theorem group_keys_order_as_integers_iff {schema : Schema} {request : Request}
    {bindings : VariableSet} {plan : Plan} (h : request.compile schema bindings = .ok plan) :
    ∃ result, root ⟨schema, request.relationships, bindings⟩ request.collection request.query =
        .ok result ∧ Plan.ofNode result = plan ∧
      (∀ (level : Level) grouping,
        request.level.Reaches ⟨schema, request.relationships, bindings⟩ level →
          level.query.groups = some grouping → ∃ statement : GroupsStatement,
            statement.select ∈ result.derivations ∧
              OrdersGroups ⟨schema, request.relationships, bindings⟩ level.scope grouping
                statement) ∧
      ∀ select ∈ result.derivations, ∀ inner, select.source = .derived inner "groups" →
        ∃ (level : Level) (grouping : Grouping) (statement : GroupsStatement),
          request.level.Reaches ⟨schema, request.relationships, bindings⟩ level ∧
            level.query.groups = some grouping ∧ select = statement.select ∧
              OrdersGroups ⟨schema, request.relationships, bindings⟩ level.scope grouping
                statement := by
  obtain ⟨result, hroot, hplan, hstand, honly⟩ := compile_levels h
  refine ⟨result, hroot, hplan, fun level grouping hreach hgrouping => ?grouped, ?only⟩
  case grouped =>
    obtain ⟨child, hchild, hselects⟩ := hstand level hreach
    obtain ⟨statement, hgroups, horders⟩ := (level.groups_statement hchild).1 grouping hgrouping
    exact ⟨statement, hselects _ (Node.mem_selects.mpr (.inr (.inr hgroups))) ⟨_, _, rfl⟩, horders⟩
  case only =>
    intro select hselect inner hsource
    obtain ⟨level, child, hreach, hchild, hmem⟩ := honly select hselect
    obtain ⟨hrows, haggregates, -⟩ := level.selects_sources hchild hsource
    rcases Node.mem_selects.mp hmem with hpart | hpart | hpart
    · exact absurd (hrows hpart) (by decide)
    · exact absurd (haggregates hpart) (by decide)
    · obtain ⟨grouping, hgrouping, statement, rfl, horders⟩ :=
        (level.groups_statement hchild).2 select hpart
      exact ⟨level, grouping, statement, hreach, hgrouping, rfl, horders⟩

/-- The first of the groups of accounts with the same columns. -/
def firstGroup (columns : List String) : Grouping where
  dimensions := columns.map fun name => .column name []
  aggregates := []
  predicate := none
  orderBy := none
  limit := some 1
  offset := none

def firstGroupRequest (columns : List String) : Request where
  collection := "accounts"
  query := ⟨none, none, none, none, none, none, some (firstGroup columns)⟩
  relationships := []
  bindings := none

/-- Groups by numbers and balances compare the numbers as integers and the balances as texts. -/
theorem accounts_ordered_by_number_and_balance :
    ∃ plan result, (firstGroupRequest ["id", "balance"]).compile accountsSchema [] = .ok plan ∧
      Plan.ofNode result = plan ∧ ∃ statement : GroupsStatement,
        statement.select ∈ result.derivations ∧
        (∀ key, statement.inner.orderBy[0]? = some key →
          key.OrdersAsIntegers statement.inner ⟨"accounts", "id"⟩) ∧
        ∀ key, statement.inner.orderBy[1]? = some key →
          key.OrdersAsTexts statement.inner ⟨"accounts", "balance"⟩ := by
  have hcompiled : (firstGroupRequest ["id", "balance"]).compile accountsSchema [] = .ok _ := rfl
  obtain ⟨result, -, hplan, hgroups, -⟩ := group_keys_order_as_integers_iff hcompiled
  obtain ⟨statement, hmem, horders⟩ := hgroups _ (firstGroup ["id", "balance"]) .refl rfl
  refine ⟨_, result, hcompiled, hplan, statement, hmem, fun key hkey => ?number,
    fun key hkey => ?balance⟩
  case number =>
    refine (horders.integers rfl hkey).1.mpr ?_
    rintro ⟨type, integer, htype, hwide⟩
    obtain rfl : FieldType.named "Int" = type := Option.some.inj htype
    cases hwide
  case balance =>
    exact (horders.integers rfl hkey).2 ⟨.nullable (.named "BigInt"), .bigInt, rfl, rfl⟩

/-- The key of the balances stands for a cast, inside and outside, so the group of 10 is sorted
before that of 9 and is the one on the first page. -/
theorem balances_ordered_as_texts :
    ∃ plan result, (firstGroupRequest ["balance"]).compile accountsSchema [] = .ok plan ∧
      Plan.ofNode result = plan ∧ ∃ statement : GroupsStatement,
        result.groups = some statement.select ∧
        statement.inner.outputs =
          [(.projected .castAsText ⟨"accounts", "balance"⟩, some "d0")] ∧
        statement.inner.orderBy = [⟨.output "d0", .plainColumn, none⟩] ∧
        statement.listed = [⟨.output "d0", .plainColumn, none⟩] ∧
        Context.Wide ⟨accountsSchema, [], []⟩ "accounts" "balance" ∧
        (∀ key ∈ statement.inner.orderBy,
          ¬key.OrdersAsIntegers statement.inner ⟨"accounts", "balance"⟩) ∧
        Sql.SortedBy (compareBy
          (SortKey.compareRows (Sql.integers fun (balance : Int) _ => balance) statement.inner)
            statement.inner.orderBy) [10, 9] ∧
        statement.inner.page.window [10, 9] = [10] := by
  refine ⟨_, _, rfl, rfl, groupsStatement ⟨"memory.main.accounts", "accounts"⟩ [] ⟨some 1, none⟩
    [.projected .castAsText ⟨"accounts", "balance"⟩] [], rfl, rfl, rfl, rfl,
    ⟨.nullable (.named "BigInt"), .bigInt, rfl, rfl⟩, ?_, ?_, rfl⟩
  · intro key hkey
    obtain rfl := List.mem_singleton.mp hkey
    exact (Sql.ordersAsTexts_of_cast rfl rfl).not_integers
  · exact List.pairwise_pair.mpr (by decide)

end Compile

end NestedSql
