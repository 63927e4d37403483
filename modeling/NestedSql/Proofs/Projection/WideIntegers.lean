import Mathlib.Data.List.Forall2
import NestedSql.Proofs.Projection.Leaves

/-!
# Wide integers in documents

A request asks for values: columns of rows and dimensions, and aggregates. The leaves of the
documents of a compiled request are these values, one for one and in the same order. A column stands
there as a cast to text if its declared scalar is a wide integer, and as it is otherwise; an
aggregate is never cast. So wide integers leave as text only, exactly if no sum, minimum or maximum
of them is asked for.
-/

namespace NestedSql.Compile

open Sql (Condition Expr Select Summary Table)

/-! ## Values that a request asks for -/

/-- A value of the document: a column of a scope, or an aggregate over one. -/
inductive Contribution where
  | column (scope : Scope) (name : String)
  | aggregate (scope : Scope) (aggregate : Aggregate)
deriving DecidableEq, Repr

def Contribution.isColumn : Contribution → Bool
  | .column _ _ => true
  | .aggregate _ _ => false

/-- The values of the parts of a node, for each part that it has. -/
structure Contributions where
  rows : Option (List Contribution)
  aggregates : Option (List Contribution)
  groups : Option (List Contribution)

def Contributions.all (contributions : Contributions) : List Contribution :=
  ([contributions.rows, contributions.aggregates, contributions.groups].filterMap id).flatten

def aggregateContributions (scope : Scope) (aggregates : Entries Aggregate) : List Contribution :=
  aggregates.map fun entry => .aggregate scope entry.2

def dimensionContributions (scope : Scope) (dimensions : List Dimension) : List Contribution :=
  dimensions.map fun
    | .column name _ => .column scope name

mutual

/-- The values of a node, those of nested nodes among the values of its rows. -/
def nodeContributions (relationships : Entries Relationship) (collection : String)
    (path : AliasPath) : Query → Contributions
  | ⟨fields, aggregates, _, _, _, _, groups?⟩ =>
    { rows := rowContributions relationships ⟨collection, path.tableAlias⟩ path fields
      aggregates := aggregates.map (aggregateContributions ⟨collection, subqueryAlias⟩)
      groups := groups?.map fun grouping =>
        dimensionContributions ⟨collection, path.tableAlias⟩ grouping.dimensions ++
          aggregateContributions ⟨collection, path.tableAlias⟩ grouping.aggregates }

def rowContributions (relationships : Entries Relationship) (scope : Scope) (path : AliasPath) :
    Option (List (String × Field)) → Option (List Contribution)
  | none => none
  | some fields => some (fieldsContributions relationships scope path fields)

def fieldsContributions (relationships : Entries Relationship) (scope : Scope)
    (path : AliasPath) : List (String × Field) → List Contribution
  | [] => []
  | (_, field) :: fields =>
    fieldContributions relationships scope path field ++
      fieldsContributions relationships scope path fields

def fieldContributions (relationships : Entries Relationship) (scope : Scope) (path : AliasPath) :
    Field → List Contribution
  | .column name => [.column scope name]
  | .relationship name query =>
    match Entries.get? name relationships with
    | none => []
    | some relationship =>
      (nodeContributions relationships relationship.target (path.child relationship.target)
        query).all

end

/-! ## Values at the leaves -/

/-- The column of a collection has a wide integer for its scalar, alone or in lists. -/
def Context.Wide (context : Context) (collection column : String) : Prop :=
  ∃ type integer, context.columnType? collection column = some type ∧
    ScalarType.ofName? type.underlyingName = some (.wide integer)

/-- The functions whose result is a value of the column, or a sum of such. -/
def ownFunctions : List String := ["_min", "_max", "_sum"]

/-- The column whose own values make the value. -/
def Contribution.own? : Contribution → Option (Scope × String)
  | .column scope name => some (scope, name)
  | .aggregate scope (.singleColumn name function) =>
    if function ∈ ownFunctions then some (scope, name) else none
  | .aggregate _ _ => none

/-- The value is a wide integer of the column itself. -/
def Contribution.OwnWide (context : Context) (contribution : Contribution) : Prop :=
  ∃ scope name, contribution.own? = some (scope, name) ∧ context.Wide scope.collection name

/-- The text of the expression is a cast to text. -/
def CastsToText (leaf : Expr) : Prop :=
  ∃ inner, leaf.render.sql = "CAST(" ++ inner ++ " AS TEXT)"

/-- The expression that stands for a value. -/
inductive Places (context : Context) : Contribution → Expr → Prop where
  | column {scope : Scope} {name : String} {type : FieldType} {scalar : ScalarType} :
      context.columnType? scope.collection name = some type →
      ScalarType.ofName? type.underlyingName = some scalar →
      Places context (.column scope name)
        (.projected (if scalar.wide?.isSome then .castAsText else .plainColumn)
          (scope.column name))
  | aggregate {scope : Scope} {aggregate : Aggregate} {value : Summary} :
      summary scope.tableAlias aggregate = .ok value →
      Places context (.aggregate scope aggregate) (.summary value)

section Places

variable {context : Context} {contribution : Contribution} {leaf : Expr} {scope : Scope}

/-- A declared column is placed as the strategy for projections says. -/
theorem placed_column {name : String} {type : FieldType} {strategy : Strategy}
    (htype : context.columnType? scope.collection name = some type)
    (hstrategy : classify type .projection = .ok strategy) :
    Places context (.column scope name) (.projected strategy (scope.column name)) := by
  obtain ⟨scalar, hscalar, rfl⟩ := classify_eq_ok.mp hstrategy
  have hchosen : Compile.strategy scalar type.isArray .projection =
      if scalar.wide?.isSome then .castAsText else .plainColumn := by
    cases scalar <;> rfl
  rw [hchosen]
  exact .column htype hscalar

theorem head?_append {start text : String} {c : Char} (h : start.toList.head? = some c) :
    (start ++ text).toList.head? = some c := by
  rw [String.toList_append, List.head?_append, h, Option.some_or]

/-- The texts of sums, minima and maxima begin with `S` or `M`. -/
theorem own_function_letter {name : String} {function : AggregateFunction}
    (hname : name ∈ ownFunctions) (hfunction : AggregateFunction.ofName? name = some function)
    (column : String) : ∃ letter ∈ ['M', 'S'],
      (function.sql column).toList.head? = some letter := by
  rw [ownFunctions, List.mem_cons, List.mem_cons, List.mem_singleton] at hname
  obtain rfl | rfl | rfl := hname
  · obtain rfl : AggregateFunction.min = function := Option.some.inj hfunction
    exact ⟨'M', by decide, head?_append (head?_append rfl)⟩
  · obtain rfl : AggregateFunction.max = function := Option.some.inj hfunction
    exact ⟨'M', by decide, head?_append (head?_append rfl)⟩
  · obtain rfl : AggregateFunction.sum = function := Option.some.inj hfunction
    exact ⟨'S', by decide, head?_append (head?_append rfl)⟩

/-- No sum, minimum or maximum is written as a cast, which begins with another letter. -/
theorem own_function_not_cast {name : String} {function : AggregateFunction}
    (hname : name ∈ ownFunctions) (hfunction : AggregateFunction.ofName? name = some function)
    (column : Sql.ColumnRef) : ¬CastsToText (.summary (.function function column)) := by
  rintro ⟨inner, h⟩
  have htext : function.sql column.sql = "CAST(" ++ inner ++ " AS TEXT)" := h
  have hcast : (function.sql column.sql).toList.head? = some 'C' := by
    rw [htext]
    exact head?_append (head?_append rfl)
  obtain ⟨letter, hletter, hhead⟩ := own_function_letter hname hfunction column.sql
  obtain rfl := Option.some.inj (hhead.symm.trans hcast)
  exact absurd hletter (by decide)

/-- A wide integer is cast to text exactly if it comes from a column. -/
theorem Places.cast_iff (h : Places context contribution leaf) :
    (contribution.OwnWide context → CastsToText leaf) ↔
      (contribution.OwnWide context → contribution.isColumn = true) := by
  cases h with
  | @column scope name type scalar htype hscalar =>
    refine ⟨fun _ _ => rfl, fun _ ⟨_, _, hown, other, integer, hother, hwide⟩ => ?_⟩
    obtain ⟨rfl, rfl⟩ := Prod.mk.inj (Option.some.inj hown)
    obtain rfl := Option.some.inj (htype.symm.trans hother)
    obtain rfl := Option.some.inj (hscalar.symm.trans hwide)
    exact ⟨_, rfl⟩
  | @aggregate scope aggregate value hvalue =>
    have hnever : (Contribution.aggregate scope aggregate).OwnWide context →
        ¬CastsToText (.summary value) := by
      rintro ⟨_, _, hown, -⟩
      cases aggregate with
      | starCount => cases hown
      | columnCount column distinct => cases hown
      | singleColumn column name =>
        by_cases hname : name ∈ ownFunctions
        · obtain ⟨function, hfunction, rfl⟩ := summary_function_eq_ok.mp hvalue
          exact own_function_not_cast hname hfunction _
        · rw [Contribution.own?, if_neg hname] at hown
          cases hown
    constructor
    · exact fun hcast hown => absurd (hcast hown) (hnever hown)
    · exact fun hcolumn hown => absurd (hcolumn hown) Bool.false_ne_true

end Places

/-! ## Nodes -/

/-- The leaves of some outputs are these values, in this order. -/
abbrev Placed (context : Context) (contributions : List Contribution) (leaves : List Expr) : Prop :=
  List.Forall₂ (Places context) contributions leaves

/-- The leaves of the selects of a node are the values of its parts. -/
structure Node.Places (context : Context) (contributions : Contributions) (node : Node) :
    Prop where
  rows : Option.Rel (fun values select => Placed context values (Select.leaves select))
    contributions.rows node.rows
  aggregates : Option.Rel (fun values select => Placed context values (Select.leaves select))
    contributions.aggregates node.aggregates
  groups : Option.Rel (fun values select => Placed context values (Select.leaves select))
    contributions.groups node.groups

section Parts

variable {context : Context} {scope : Scope}

theorem Contributions.all_eq (contributions : Contributions) : contributions.all =
    contributions.rows.getD [] ++ (contributions.aggregates.getD [] ++
      contributions.groups.getD []) := by
  obtain ⟨rows, aggregates, groups⟩ := contributions
  cases rows <;> cases aggregates <;> cases groups <;> simp [Contributions.all]

theorem Node.leaves_eq (node : Node) : node.selects.flatMap Select.leaves =
    (node.rows.map Select.leaves).getD [] ++ ((node.aggregates.map Select.leaves).getD [] ++
      (node.groups.map Select.leaves).getD []) := by
  obtain ⟨rows, aggregates, groups⟩ := node
  cases rows <;> cases aggregates <;> cases groups <;> simp [Node.selects]

theorem Node.Places.all {contributions : Contributions} {node : Node}
    (h : node.Places context contributions) :
    Placed context contributions.all (node.selects.flatMap Select.leaves) := by
  have hpart : ∀ {values : Option (List Contribution)} {part : Option Select},
      Option.Rel (fun values select => Placed context values (Select.leaves select)) values part →
        Placed context (values.getD []) ((part.map Select.leaves).getD []) := by
    rintro values part (hpart | _)
    · exact hpart
    · exact .nil
  rw [Contributions.all_eq, Node.leaves_eq]
  exact List.rel_append (hpart h.rows) (List.rel_append (hpart h.aggregates) (hpart h.groups))

theorem summaries_placed {entries : Entries Aggregate} {outputs : List (String × Summary)}
    (h : summaries entries scope.tableAlias = .ok outputs) :
    Placed context (aggregateContributions scope entries)
      (outputs.map fun output => .summary output.2) := by
  induction entries generalizing outputs with
  | nil =>
    obtain rfl := pure_eq_ok.mp h
    exact .nil
  | cons entry entries ih =>
    obtain ⟨value, hvalue, others, hothers, rfl⟩ := summaries_cons_eq_ok.mp h
    exact .cons (.aggregate hvalue) (ih hothers)

theorem dimensions_placed {dimensions : List Dimension} {values : List Expr}
    (h : dimensions.mapM (dimension context scope) = .ok values) :
    Placed context (dimensionContributions scope dimensions)
      (values.flatMap (Expr.leaves [])) := by
  induction dimensions generalizing values with
  | nil =>
    obtain rfl := pure_eq_ok.mp h
    exact .nil
  | cons entry dimensions ih =>
    obtain ⟨value, hvalue, others, hothers, rfl⟩ := mapM_cons_eq_ok.mp h
    obtain ⟨name, rfl, type, htype, strategy, hstrategy, rfl⟩ := dimension_eq_ok.mp hvalue
    exact .cons (placed_column htype hstrategy) (ih hothers)

theorem aggregatesPart_placed {rows : Rows} {aggregates : Option (Entries Aggregate)}
    {part : Option Select} (h : aggregatesPart rows aggregates = .ok part) (collection : String) :
    Option.Rel (fun values select => Placed context values (Select.leaves select))
      (aggregates.map (aggregateContributions ⟨collection, subqueryAlias⟩)) part := by
  obtain ⟨rfl, rfl⟩ | ⟨entries, outputs, rfl, houtputs, rfl⟩ := aggregatesPart_eq_ok.mp h
  · exact .none
  · refine .some ?_
    rw [aggregatesSelect_leaves]
    exact summaries_placed houtputs

theorem groupsPart_placed {table : Table} {conditions : List Condition}
    {groups? : Option Grouping} {part : Option Select}
    (h : groups?.mapM (groups context scope table conditions) = .ok part) :
    Option.Rel (fun values select => Placed context values (Select.leaves select))
      (groups?.map fun grouping => dimensionContributions scope grouping.dimensions ++
        aggregateContributions scope grouping.aggregates) part := by
  obtain ⟨rfl, rfl⟩ | ⟨grouping, dimensions, outputs, rfl, hdimensions, houtputs, rfl⟩ :=
    groupsPart_eq_ok.mp h
  · exact .none
  · refine .some ?_
    rw [groupsSelect_leaves]
    exact List.rel_append (dimensions_placed hdimensions) (summaries_placed houtputs)

end Parts

section Nodes

variable (context : Context)

mutual

/-- The leaves of a compiled node are the values that it asks for. -/
theorem node_placed : (collection : String) → (path : AliasPath) → (parent : Option Parent) →
    (query : Query) → {result : Node} → node context collection path parent query = .ok result →
      result.Places context (nodeContributions context.relationships collection path query)
  | collection, path, parent, ⟨fields, aggregates, limit, offset, orderBy, filter, groups?⟩, _,
      h => by
    obtain ⟨-, storage, -, conditions, -, order, -, row, hrow, aggregated, haggregates, grouped,
      hgroups, rfl⟩ := node_eq_ok.mp h
    rw [nodeContributions]
    refine ⟨?rows, aggregatesPart_placed haggregates collection, groupsPart_placed hgroups⟩
    case rows =>
      have hplaced := rowObject_placed ⟨collection, path.tableAlias⟩ path fields hrow
      dsimp only
      generalize rowContributions context.relationships ⟨collection, path.tableAlias⟩ path fields =
        values at hplaced ⊢
      cases hplaced with
      | none => exact .none
      | some hvalues =>
        refine .some ?_
        rw [rowsSelect_leaves]
        exact hvalues

theorem rowObject_placed : (scope : Scope) → (path : AliasPath) →
    (fields : Option (List (String × Field))) → {row : Option Expr} →
    rowObject context scope path fields = .ok row →
      Option.Rel (fun values row => Placed context values (Expr.leaves [] row))
        (rowContributions context.relationships scope path fields) row
  | scope, path, none, _, h => by
    obtain rfl := rowObject_none_eq_ok.mp h
    rw [rowContributions]
    exact .none
  | scope, path, some fields, _, h => by
    obtain ⟨members, hmembers, rfl⟩ := rowObject_some_eq_ok.mp h
    rw [rowContributions]
    refine .some ?_
    rw [Expr.leaves]
    exact fieldMembers_placed scope path fields hmembers

theorem fieldMembers_placed : (scope : Scope) → (path : AliasPath) →
    (fields : List (String × Field)) → {members : List (String × Expr)} →
    fieldMembers context scope path fields = .ok members →
      Placed context (fieldsContributions context.relationships scope path fields)
        (Sql.memberLeaves [] members)
  | scope, path, [], _, h => by
    obtain rfl := fieldMembers_nil_eq_ok.mp h
    rw [fieldsContributions]
    exact .nil
  | scope, path, (name, field) :: fields, _, h => by
    obtain ⟨value, hvalue, members, hmembers, rfl⟩ := fieldMembers_cons_eq_ok.mp h
    rw [fieldsContributions, Sql.memberLeaves]
    exact List.rel_append (fieldExpr_placed scope path field hvalue)
      (fieldMembers_placed scope path fields hmembers)

theorem fieldExpr_placed : (scope : Scope) → (path : AliasPath) → (field : Field) →
    {value : Expr} → fieldExpr context scope path field = .ok value →
      Placed context (fieldContributions context.relationships scope path field)
        (value.leaves [])
  | scope, path, .column name, _, h => by
    obtain ⟨type, htype, strategy, hstrategy, rfl⟩ := fieldExpr_column_eq_ok.mp h
    rw [fieldContributions, Expr.leaves]
    exact .cons (placed_column htype hstrategy) .nil
  | scope, path, .relationship name query, _, h => by
    obtain ⟨relationship, hrelationship, child, hchild, rfl⟩ := fieldExpr_relationship_eq_ok.mp h
    rw [fieldContributions, hrelationship, childExpr_leaves]
    exact (node_placed relationship.target _ _ query hchild).all

end

end Nodes

/-- What is equivalent for every related pair is equivalent for related lists. -/
theorem forall₂_iff_of_related {α β : Type} {related holds : α → β → Prop} {owns : α → Prop}
    {first : List α} {second : List β} (h : List.Forall₂ related first second)
    (hpair : ∀ {a b}, related a b → (holds a b ↔ owns a)) :
    List.Forall₂ holds first second ↔ ∀ a ∈ first, owns a := by
  induction h with
  | nil => exact ⟨fun _ => List.forall_mem_nil _, fun _ => .nil⟩
  | cons hrelated _ ih => rw [List.forall₂_cons, List.forall_mem_cons, ih, hpair hrelated]

/-- The leaves of the documents of a compiled request are the values that it asks for, columns of
wide integers as casts to text. All wide integers are cast exactly if they come from columns only,
and not from a sum, a minimum or a maximum. -/
theorem wide_integers_cast_iff {schema : Schema} {request : Request} {bindings : VariableSet}
    {plan : Plan} (h : request.compile schema bindings = .ok plan) :
    ∃ result contributions,
      root ⟨schema, request.relationships, bindings⟩ request.collection request.query =
        .ok result ∧
      Plan.ofNode result = plan ∧
      nodeContributions request.relationships request.collection
        (AliasPath.root.child request.collection) request.query = contributions ∧
      result.Places ⟨schema, request.relationships, bindings⟩ contributions ∧
      (List.Forall₂ (fun contribution leaf =>
          contribution.OwnWide ⟨schema, request.relationships, bindings⟩ → CastsToText leaf)
        contributions.all (result.selects.flatMap Select.leaves) ↔
      ∀ contribution ∈ contributions.all,
        contribution.OwnWide ⟨schema, request.relationships, bindings⟩ →
          contribution.isColumn = true) := by
  obtain ⟨result, hroot, hplan⟩ := compile_eq_ok.mp h
  have hplaced := node_placed ⟨schema, request.relationships, bindings⟩ _ _ none _ hroot
  exact ⟨result, _, hroot, hplan, rfl, hplaced,
    forall₂_iff_of_related hplaced.all Places.cast_iff⟩

/-- Accounts with a balance that may be wide. -/
def accountsSchema : Schema :=
  Schema.empty.registerColumns "accounts" "memory.main.accounts"
    [("id", .named "Int"), ("balance", .nullable (.named "BigInt"))]

/-- Balances of accounts and of their peers, and a function of all balances: over the accounts, over
the peers of each, and over each group of accounts with one balance. -/
def accountsRequest (function : String) : Request where
  collection := "accounts"
  query :=
    { fields := some [("balance", .column "balance"), ("peers", .relationship "peer"
        ⟨some [("balance", .column "balance")], some [("all", .singleColumn "balance" function)],
          none, none, none, none, none⟩)]
      aggregates := some [("all", .singleColumn "balance" function)]
      limit := none
      offset := none
      orderBy := none
      predicate := none
      groups := some ⟨[.column "balance" []], [("all", .singleColumn "balance" function)], none,
        none, none, none⟩ }
  relationships := [("peer", ⟨[("id", "id")], .array, "accounts"⟩)]
  bindings := none

theorem listed_balances_cast :
    ∃ plan result contributions,
      (accountsRequest "_group_concat").compile accountsSchema [] = .ok plan ∧
      Plan.ofNode result = plan ∧ contributions.length = 6 ∧
      List.Forall₂ (fun contribution leaf => Contribution.OwnWide
          ⟨accountsSchema, (accountsRequest "_group_concat").relationships, []⟩ contribution →
            CastsToText leaf)
        contributions (result.selects.flatMap Select.leaves) := by
  have hcompiled : (accountsRequest "_group_concat").compile accountsSchema [] = .ok _ := rfl
  obtain ⟨result, contributions, -, hplan, rfl, -, hiff⟩ := wide_integers_cast_iff hcompiled
  refine ⟨_, result, _, hcompiled, hplan, ?length, hiff.mpr fun contribution hmem hown => ?column⟩
  case length => rfl
  case column =>
    have hcolumns : ∀ contribution ∈ (nodeContributions
        (accountsRequest "_group_concat").relationships "accounts"
        (AliasPath.root.child "accounts") (accountsRequest "_group_concat").query).all,
          contribution.isColumn = true ∨ contribution.own? = none := by decide
    obtain hcolumn | hnone := hcolumns contribution hmem
    · exact hcolumn
    · obtain ⟨_, _, hsome, -⟩ := hown
      rw [hnone] at hsome
      cases hsome

/-- The greatest balance is a wide integer and stands in the documents without a cast, whether it is
that of all accounts, of the peers of one or of a group. -/
theorem greatest_balance_not_cast :
    ∃ plan result, (accountsRequest "_max").compile accountsSchema [] = .ok plan ∧
      root ⟨accountsSchema, (accountsRequest "_max").relationships, []⟩ "accounts"
        (accountsRequest "_max").query = .ok result ∧
      Plan.ofNode result = plan ∧
      result.selects.flatMap Select.leaves =
        [.projected .castAsText ⟨"accounts", "balance"⟩,
          .projected .castAsText ⟨"accounts_accounts", "balance"⟩,
          .summary (.function .max ⟨"subq", "balance"⟩),
          .summary (.function .max ⟨"subq", "balance"⟩),
          .projected .castAsText ⟨"accounts", "balance"⟩,
          .summary (.function .max ⟨"accounts", "balance"⟩)] ∧
      ∀ tableAlias,
        (Contribution.aggregate ⟨"accounts", tableAlias⟩ (.singleColumn "balance" "_max")).OwnWide
            ⟨accountsSchema, (accountsRequest "_max").relationships, []⟩ ∧
          ¬CastsToText (.summary (.function .max ⟨tableAlias, "balance"⟩)) := by
  refine ⟨_, _, rfl, rfl, rfl, rfl, fun tableAlias => ⟨?wide, ?uncast⟩⟩
  case wide => exact ⟨_, _, rfl, .nullable (.named "BigInt"), .bigInt, rfl, rfl⟩
  case uncast =>
    have hname : "_max" ∈ ownFunctions := by decide
    exact own_function_not_cast hname rfl _

end NestedSql.Compile
