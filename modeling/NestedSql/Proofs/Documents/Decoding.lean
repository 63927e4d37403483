import NestedSql.Compile.Plan
import NestedSql.Execute.RowSet
import NestedSql.Proofs.Documents.Answers
import NestedSql.Proofs.Ordering.OwnJoins

/-!
# Statements and the decoder agree

Let an engine answer each statement of a plan with the text of a document that the statement may
have by the meaning of its select. Then the plan runs without error, and the row set that is
decoded answers the query.
-/

namespace NestedSql

open Sql (Cell Expr Input MembersGive Select)

/-! ## Nodes -/

namespace Compile

variable {context : Context} {scope : Scope} {path : AliasPath}

theorem object_of_rowObject {fields : Option (List (String × Field))} {row : Expr}
    (h : rowObject context scope path fields = .ok (some row)) :
    ∃ members, row = .object members := by
  cases fields with
  | none => cases rowObject_none_eq_ok.mp h
  | some fields =>
    obtain ⟨members, -, hrow⟩ := rowObject_some_eq_ok.mp h
    exact ⟨members, (Option.some.inj hrow).symm⟩

theorem rowsDocument_inj {rows others : List Row} (h : rowsDocument rows = rowsDocument others) :
    rows = others := by
  have hitems : rows.map Json.object = others.map Json.object := by
    simpa [rowsDocument] using h
  exact (List.map_inj_right fun _ _ => Json.object.inj).mp hitems

theorem groupsDocument_inj {groups others : List Group}
    (h : Json.array (groups.map Group.json) = .array (others.map Group.json)) :
    groups = others := by
  have hgroup : ∀ group other : Group, group.json = other.json → group = other := by
    rintro ⟨dimensions, aggregates⟩ ⟨otherDimensions, otherAggregates⟩ h
    simpa [Group.json] using h
  exact (List.map_inj_right hgroup).mp (Json.array.inj h)

/-- Every node that is compiled returns documents of its three kinds. -/
theorem node_documented {collection : String} {parent : Option Parent} {query : Query}
    {result : Node} (h : node context collection path parent query = .ok result) :
    result.Documented := by
  obtain ⟨fields, aggregates, limit, offset, orderBy, filter, groups?⟩ := query
  obtain ⟨-, storage, -, conditions, -, order, -, row, hrow, aggregated, haggregated, grouped,
    hgrouped, rfl⟩ := node_eq_ok.mp h
  refine ⟨?rows, ?aggregates, ?groups⟩
  case rows =>
    intro select hselect cell hcell
    obtain ⟨document, rfl, rfl⟩ := Option.map_eq_some_iff.mp hselect
    obtain ⟨members, rfl⟩ := object_of_rowObject hrow
    obtain ⟨rows, rfl, -⟩ := rowsSelect_value hcell
    exact ⟨rows, rfl⟩
  case aggregates =>
    rintro select rfl cell hcell
    rcases aggregatesPart_eq_ok.mp haggregated with ⟨-, hnone⟩ | ⟨entries, outputs, -, -, hpart⟩
    · cases hnone
    · obtain rfl := Option.some.inj hpart
      obtain ⟨values, rfl, -⟩ := aggregatesSelect_value hcell
      exact ⟨values, rfl⟩
  case groups =>
    rintro select rfl cell hcell
    rcases groupsPart_eq_ok.mp hgrouped with
      ⟨-, hnone⟩ | ⟨grouping, dimensions, outputs, -, -, -, hpart⟩
    · cases hnone
    · obtain rfl := Option.some.inj hpart
      obtain ⟨groups, rfl, -⟩ := groupsSelect_value hcell
      exact ⟨groups, rfl⟩

/-- The aggregates that a node returns are those that were asked for. -/
theorem aggregatesPart_answered {rows : Rows} {aggregates : Option (Entries Aggregate)}
    {part : Option Select} {answer : Option (Entries Json)}
    (h : aggregatesPart rows aggregates = .ok part)
    (hanswer : Option.Rel (fun select answer => select.Value (some (.object answer))) part answer) :
    Option.Rel (fun requested answer => Entries.names answer = Entries.names requested) aggregates
      (answer.map Json.mergedMembers) := by
  rcases aggregatesPart_eq_ok.mp h with ⟨rfl, rfl⟩ | ⟨entries, outputs, rfl, houtputs, rfl⟩
  · cases hanswer
    exact .none
  · cases hanswer with
    | some hvalue =>
      obtain ⟨_, hvalues, hnames⟩ := aggregatesSelect_value hvalue
      obtain rfl := Json.object.inj (Option.some.inj hvalues)
      exact .some (by rw [Json.names_mergedMembers, hnames, names_of_summaries houtputs])

theorem groupsPart_answered {table : Sql.Table} {conditions : List Sql.Condition}
    {groups? : Option Grouping} {part : Option Select} {answer : Option (List Group)}
    (h : groups?.mapM (groups context scope table conditions) = .ok part)
    (hanswer : Option.Rel
      (fun select answer => select.Value (some (.array (answer.map Group.json)))) part answer) :
    Option.Rel (fun grouping answers => ∀ group ∈ answers, grouping.Answered group) groups?
      (answer.map (List.map Group.merged)) := by
  rcases groupsPart_eq_ok.mp h with
    ⟨rfl, rfl⟩ | ⟨grouping, dimensions, outputs, rfl, hdimensions, houtputs, rfl⟩
  · cases hanswer
    exact .none
  · cases hanswer with
    | some hvalue =>
      obtain ⟨groups, hgroups, hall⟩ := groupsSelect_value hvalue
      obtain rfl := groupsDocument_inj (Option.some.inj hgroups)
      refine .some fun _ hmerged => ?_
      obtain ⟨group, hgroup, rfl⟩ := List.mem_map.mp hmerged
      obtain ⟨hlength, hnames⟩ := hall group hgroup
      refine ⟨?dimensions, ?aggregates⟩
      case dimensions =>
        rw [Group.merged, Json.mergedItems_eq, List.length_map, hlength, length_of_mapM hdimensions]
      case aggregates =>
        rw [Group.merged, Json.names_mergedMembers, hnames, names_of_summaries houtputs]

mutual

/-- What the selects of a node return, once it is read, answers the query. -/
theorem node_answered (context : Context) : (collection : String) → (path : AliasPath) →
    (parent : Option Parent) → (query : Query) → {result : Node} → {rowSet : RowSet} →
      node context collection path parent query = .ok result → query.NamesDistinct →
        result.Returns rowSet → query.Answered rowSet.merged
  | collection, path, parent, ⟨fields, aggregates, limit, offset, orderBy, filter, groups?⟩,
      result, rowSet, h, hnames, hreturns => by
    obtain ⟨-, storage, -, conditions, -, order, -, row, hrow, aggregated, haggregated, grouped,
      hgrouped, rfl⟩ := node_eq_ok.mp h
    exact ⟨rowObject_answered context _ path fields hrow hnames.1 hreturns.rows,
      aggregatesPart_answered haggregated hreturns.aggregates,
      groupsPart_answered hgrouped hreturns.groups⟩

theorem rowObject_answered (context : Context) : (scope : Scope) → (path : AliasPath) →
    (fields : Option (List (String × Field))) → {row : Option Expr} → {rows : Rows} →
      {answers : Option (List Row)} → rowObject context scope path fields = .ok row →
        rowNamesDistinct fields →
          Option.Rel (fun select rows => select.Value (some (rowsDocument rows)))
            (row.map (rowsSelect rows)) answers →
              rowsAnswered fields (answers.map (List.map Json.mergedMembers))
  | scope, path, none, row, rows, answers, h, _, hanswers => by
    obtain rfl := rowObject_none_eq_ok.mp h
    cases hanswers
    rfl
  | scope, path, some fields, row, rows, answers, h, hnames, hanswers => by
    obtain ⟨members, hmembers, rfl⟩ := rowObject_some_eq_ok.mp h
    cases hanswers with
    | some hvalue =>
      obtain ⟨rows, hrows, hall⟩ := rowsSelect_value hvalue
      obtain rfl := rowsDocument_inj (Option.some.inj hrows)
      refine ⟨_, rfl, fun _ hmerged => ?_⟩
      obtain ⟨row, hrow, rfl⟩ := List.mem_map.mp hmerged
      obtain ⟨input, hgives⟩ := hall row hrow
      exact fieldMembers_answered context scope path fields hmembers hnames.2 hgives

theorem fieldMembers_answered (context : Context) : (scope : Scope) → (path : AliasPath) →
    (fields : List (String × Field)) → {members : List (String × Expr)} → {input : Input} →
      {row : Row} → fieldMembers context scope path fields = .ok members →
        fieldsNamesDistinct fields → MembersGive members input row →
          rowAnswered fields (Json.mergedMembers row)
  | scope, path, [], members, input, row, h, _, hgives => by
    obtain rfl := fieldMembers_nil_eq_ok.mp h
    obtain rfl : row = [] := hgives
    rfl
  | scope, path, (name, field) :: fields, members, input, row, h, hnames, hgives => by
    obtain ⟨value, hvalue, others, hothers, rfl⟩ := fieldMembers_cons_eq_ok.mp h
    obtain ⟨cell, rest, hcell, hrest, rfl⟩ := hgives
    exact ⟨_, _, rfl, fieldExpr_answered context scope path field hvalue hnames.1 hcell,
      fieldMembers_answered context scope path fields hothers hnames.2 hrest⟩

theorem fieldExpr_answered (context : Context) : (scope : Scope) → (path : AliasPath) →
    (field : Field) → {value : Expr} → {input : Input} → {cell : Cell} →
      fieldExpr context scope path field = .ok value → field.NamesDistinct →
        value.Gives input cell → field.Answered (cell.getD .null).merged
  | scope, path, .column name, value, input, cell, _, _, _ => trivial
  | scope, path, .relationship name query, value, input, cell, h, hnames, hgives => by
    obtain ⟨relationship, -, child, hchild, rfl⟩ := fieldExpr_relationship_eq_ok.mp h
    obtain ⟨rowSet, hreturns, rfl⟩ := childExpr_gives (node_documented hchild) hgives
    have hanswered := node_answered context _ _ _ query hchild hnames hreturns
    exact ⟨rowSet.merged, hanswered, (hanswered.namedOnce hnames).merged_json⟩

end

end Compile

/-! ## Plans -/

/-- The outcome is the text of the value, whose nesting the parser allows. -/
def Outcome.Shows (outcome : Outcome) : Cell → Prop
  | none => outcome = .null
  | some document => ∃ text, outcome = .text text ∧ document.WrittenIn text ∧
      document.written.depth ≤ Json.nestingLimit

/-- The engine answers the statement of the select with a value that the select may have. -/
def Sql.Select.AnsweredBy (engine : Engine) (select : Select) : Prop :=
  ∃ cell, select.Value cell ∧ (engine select.renderRoot).Shows cell

/-- The engine answers every statement of the node. -/
structure Compile.Node.AnsweredBy (engine : Engine) (node : Compile.Node) : Prop where
  rows : ∀ select ∈ node.rows, select.AnsweredBy engine
  aggregates : ∀ select ∈ node.aggregates, select.AnsweredBy engine
  groups : ∀ select ∈ node.groups, select.AnsweredBy engine

theorem Outcome.Shows.document {outcome : Outcome} {document : Json}
    (h : outcome.Shows (some document)) : outcome.document = .ok document.merged := by
  obtain ⟨text, rfl, hwritten, hdepth⟩ := h
  rw [Outcome.document, Json.parse?_of_writtenIn hwritten hdepth]
  rfl

theorem rowsOf_merged {rows : List Row} (h : ∀ row ∈ rows, Entries.Distinct row) :
    RowSet.rowsOf (Compile.rowsDocument rows).merged = .ok (rows.map Json.mergedMembers) := by
  have hrows : (Json.ofList .object rows).merged = .ofList .object (rows.map Json.mergedMembers) :=
    merged_ofList fun row hrow => Json.merged_object (h row hrow)
  have hdocument : (Compile.rowsDocument rows).merged =
      .object [("rows", .ofList .object (rows.map Json.mergedMembers))] := by
    rw [← hrows]
    exact Json.merged_object (by simp [Entries.Distinct])
  rw [hdocument]
  refine RowSet.rowsOf_document fun _ hmerged => ?_
  obtain ⟨row, hrow, rfl⟩ := List.mem_map.mp hmerged
  rw [← Json.merged_object (h row hrow), Json.merged_merged]

theorem aggregatesOf_merged {aggregates : Entries Json} (h : Entries.Distinct aggregates) :
    RowSet.aggregatesOf (Json.object aggregates).merged = .ok (Json.mergedMembers aggregates) := by
  rw [Json.merged_object h]
  rfl

theorem groupsOf_merged {groups : List Group}
    (h : ∀ group ∈ groups, Entries.Distinct group.aggregates) :
    RowSet.groupsOf (Json.array (groups.map Group.json)).merged =
      .ok (groups.map Group.merged) := by
  have hgroups : (Json.ofList Group.json groups).merged =
      .ofList Group.json (groups.map Group.merged) :=
    merged_ofList fun group hgroup => merged_groupJson (h group hgroup)
  rw [Json.ofList] at hgroups
  rw [hgroups]
  refine RowSet.groupsOf_document fun _ hmerged => ?_
  obtain ⟨group, hgroup, rfl⟩ := List.mem_map.mp hmerged
  rw [← merged_groupJson (h group hgroup), Json.merged_merged]

variable {engine : Engine}

/-- A part that is answered has a document, and its outcome is the text of it. -/
theorem part_answered {α : Type} {part : Option Select} {document : α → Json}
    (hpart : ∀ select ∈ part, ∀ cell, select.Value cell → ∃ answer, cell = some (document answer))
    (hengine : ∀ select ∈ part, select.AnsweredBy engine) :
    ∃ answer : Option α, Option.Rel (fun select answer => select.Value (some (document answer)))
        part answer ∧
      Option.Rel (fun select answer => (engine select.renderRoot).Shows (some (document answer)))
        part answer := by
  cases part with
  | none => exact ⟨none, .none, .none⟩
  | some select =>
    obtain ⟨cell, hvalue, hshows⟩ := hengine select rfl
    obtain ⟨answer, rfl⟩ := hpart select rfl cell hvalue
    exact ⟨some answer, .some hvalue, .some hshows⟩

/-- A part whose documents are read is there with what is read. -/
theorem part_decoded {α : Type} {part : Option Select} {answer : Option α} {document : α → Json}
    {merged : α → α} {decode : Json → Except ExecutionError α}
    (hpart : Option.Rel (fun select answer => (engine select.renderRoot).Shows
      (some (document answer))) part answer)
    (hdecode : ∀ found ∈ answer, decode (document found).merged = .ok (merged found)) :
    ((part.map Select.renderRoot).mapM fun statement => do
      decode (← (engine statement).document)) = .ok (answer.map merged) := by
  cases hpart with
  | none => rfl
  | some hshows =>
    rw [Option.map_some, Option.mapM_some, hshows.document]
    exact congrArg (some <$> ·) (hdecode _ rfl)

/-- The plan of a node that is answered runs to the row set that its documents show. -/
theorem run_ofNode {node : Compile.Node} (hnode : node.Documented) (h : node.AnsweredBy engine) :
    ∃ rowSet : RowSet, node.Returns rowSet ∧
      (rowSet.NamedOnce → (Plan.ofNode node).run engine = .ok rowSet.merged) := by
  obtain ⟨rows, hrows, hrowsShown⟩ := part_answered hnode.rows h.rows
  obtain ⟨aggregates, haggregates, haggregatesShown⟩ := part_answered hnode.aggregates h.aggregates
  obtain ⟨groups, hgroups, hgroupsShown⟩ := part_answered hnode.groups h.groups
  refine ⟨⟨rows, aggregates, groups⟩, ⟨hrows, haggregates, hgroups⟩, fun hnamed => ?_⟩
  have hrowsDecoded : ((node.rows.map Select.renderRoot).mapM fun statement => do
      RowSet.rowsOf (← (engine statement).document)) =
        .ok (rows.map (List.map Json.mergedMembers)) :=
    part_decoded hrowsShown fun answers hanswers => rowsOf_merged (hnamed.rows answers hanswers)
  have haggregatesDecoded : ((node.aggregates.map Select.renderRoot).mapM fun statement => do
      RowSet.aggregatesOf (← (engine statement).document)) =
        .ok (aggregates.map Json.mergedMembers) :=
    part_decoded haggregatesShown fun answer hanswer =>
      aggregatesOf_merged (hnamed.aggregates answer hanswer)
  have hgroupsDecoded : ((node.groups.map Select.renderRoot).mapM fun statement => do
      RowSet.groupsOf (← (engine statement).document)) =
        .ok (groups.map (List.map Group.merged)) :=
    part_decoded hgroupsShown fun answers hanswers =>
      groupsOf_merged (hnamed.groups answers hanswers)
  simp only [Plan.run, Plan.ofNode, hrowsDecoded, haggregatesDecoded, hgroupsDecoded]
  rfl

/-- Every plan that is compiled runs without error to an answer of its query, whatever values its
statements have in columns, in aggregates and for rows. The names of a query that is read are
distinct, by `Wire.namesDistinct_of_fromHead`. -/
theorem returned_documents_answer_query {schema : Schema} {request : Request}
    {bindings : VariableSet} {plan : Plan} (hplan : request.compile schema bindings = .ok plan)
    (hnames : request.query.NamesDistinct) :
    ∃ node, Compile.root ⟨schema, request.relationships, bindings⟩ request.collection
        request.query = .ok node ∧ plan = .ofNode node ∧
      ∀ engine, node.AnsweredBy engine →
        ∃ rowSet, plan.run engine = .ok rowSet ∧ request.query.Answered rowSet := by
  obtain ⟨node, hnode, hplan⟩ := Compile.bind_eq_ok.mp hplan
  obtain rfl := Compile.pure_eq_ok.mp hplan
  refine ⟨node, hnode, rfl, fun engine hengine => ?_⟩
  obtain ⟨rowSet, hreturns, hrun⟩ := run_ofNode (Compile.node_documented hnode) hengine
  have hanswered := Compile.node_answered _ _ _ _ _ hnode hnames hreturns
  exact ⟨rowSet.merged, hrun (hanswered.namedOnce hnames), hanswered⟩

/-- Orders with the names of their buyers and the last of their numbers. -/
def receiptRequest : Request where
  collection := "orders"
  query := ⟨some [("buyer_id", .column "buyer_id"), ("buyer", .relationship "buyer"
      ⟨some [("name", .column "name")], some [("last", .singleColumn "id" "_max")], none, none,
        none, none, none⟩)], none, none, none, none, none, none⟩
  relationships := Compile.tradeContext.relationships
  bindings := none

/-- An order without a buyer. -/
def receiptRow : Row :=
  [("buyer_id", .null),
    ("buyer", .object [("rows", .array []), ("aggregates", .object [("last", .null)])])]

/-- The text of the one order, whatever the statement. -/
def receiptEngine : Engine := fun _ => .text
  ("\x7b\"rows\": [\x7b\"buyer_id\": null, \"buyer\": " ++
    "\x7b\"rows\": [], \"aggregates\": \x7b\"last\": null\x7d\x7d\x7d]\x7d")

theorem receiptEngine_answers {node : Compile.Node}
    (h : Compile.root ⟨Compile.tradeContext.schema, receiptRequest.relationships, []⟩
      receiptRequest.collection receiptRequest.query = .ok node) :
    node.AnsweredBy receiptEngine := by
  have hroot : Compile.root ⟨Compile.tradeContext.schema, receiptRequest.relationships, []⟩
    receiptRequest.collection receiptRequest.query = .ok _ := rfl
  obtain rfl := Except.ok.inj (h.symm.trans hroot)
  refine ⟨?rows, nofun, nofun⟩
  case rows =>
    intro select hselect
    obtain rfl := Option.some.inj hselect
    refine ⟨some (Compile.rowsDocument [receiptRow]), ?_, _, rfl, ⟨[], by cbv, rfl⟩, by decide⟩
    -- the one order: its column is NULL, and its buyer an object of two parts
    refine Compile.value_rowsSelect rfl rfl (.cons (a := []) ?_ .nil)
    refine ⟨none, _, trivial, ⟨some _, [], ?_, rfl, rfl⟩, rfl⟩
    refine ⟨some _, ?_, .inr ⟨Option.some_ne_none _, rfl⟩⟩
    refine (Sql.value_single_nothing rfl).mpr ⟨_, ⟨_, _,
      ⟨some (Compile.rowsDocument []), Compile.value_rowsSelect rfl rfl .nil, rfl⟩,
      ⟨some (.object [("last", .null)]), [], ?_, rfl, rfl⟩, rfl⟩, rfl⟩
    refine (Sql.value_single_gathered rfl).mpr ⟨[], ?_, _, ⟨none, [], trivial, rfl, rfl⟩, rfl⟩
    exact ⟨[], [], trivial, ⟨[], [], [], .refl _, fun _ => rfl, rfl, .refl _, .refl _,
      fun _ => rfl⟩, .nil⟩

theorem receipts_decode :
    ∃ plan rowSet, receiptRequest.compile Compile.tradeContext.schema [] = .ok plan ∧
      plan.run receiptEngine = .ok rowSet ∧ receiptRequest.query.Answered rowSet := by
  have hplan : receiptRequest.compile Compile.tradeContext.schema [] = .ok _ := rfl
  have hnames : receiptRequest.query.NamesDistinct := by
    simp [receiptRequest, Query.NamesDistinct, rowNamesDistinct, fieldsNamesDistinct,
      Field.NamesDistinct, Entries.Distinct]
  obtain ⟨node, hnode, -, hrun⟩ := returned_documents_answer_query hplan hnames
  obtain ⟨rowSet, hrowSet, hanswered⟩ := hrun receiptEngine (receiptEngine_answers hnode)
  exact ⟨_, rowSet, hplan, hrowSet, hanswered⟩

end NestedSql
