import Mathlib.Data.Option.Basic
import NestedSql.Proofs.Compile.Steps
import NestedSql.Proofs.Documents.Meaning
import NestedSql.Wire.Writer

/-!
# Documents of the selects of a node

The rows of a node are an object with one member, the array of the objects of its rows; there is
one such object, and the array is empty, when there are no rows. Aggregates are one object with the
names that were asked for, groups an array of objects of dimensions and aggregates. A child stands
in the row of its parent as an object of its parts, never as NULL.
-/

namespace NestedSql.Compile

open Sql

/-! ## Members and items -/

theorem names_of_membersGive {members : List (String × Expr)} {input : Input}
    {values : List (String × Json)} (h : MembersGive members input values) :
    Entries.names values = Entries.names members := by
  induction members generalizing values with
  | nil =>
    obtain rfl : values = [] := h
    rfl
  | cons member members ih =>
    obtain ⟨cell, rest, -, hrest, rfl⟩ := h
    rw [Entries.names_cons, ih hrest]
    rfl

theorem membersGive_append {first second : List (String × Expr)} {input : Input}
    {values : List (String × Json)} (h : MembersGive (first ++ second) input values) :
    ∃ before after, MembersGive first input before ∧ MembersGive second input after ∧
      values = before ++ after := by
  induction first generalizing values with
  | nil => exact ⟨[], values, rfl, h, rfl⟩
  | cons member first ih =>
    obtain ⟨cell, rest, hcell, hrest, rfl⟩ := h
    obtain ⟨before, after, hbefore, hafter, rfl⟩ := ih hrest
    exact ⟨_, after, ⟨cell, before, hcell, hbefore, rfl⟩, hafter, rfl⟩

theorem length_of_itemsGive {items : List Expr} {input : Input} {values : List Json}
    (h : ItemsGive items input values) : values.length = items.length := by
  induction items generalizing values with
  | nil =>
    obtain rfl : values = [] := h
    rfl
  | cons item items ih =>
    obtain ⟨cell, rest, -, hrest, rfl⟩ := h
    rw [List.length_cons, ih hrest, List.length_cons]

/-- Values that all come from items are the image of a list of items. -/
theorem items_of_forall {α β : Type} {f : α → β} {holds : α → Prop} {values : List β}
    (h : ∀ value ∈ values, ∃ item, f item = value ∧ holds item) :
    ∃ items : List α, items.map f = values ∧ ∀ item ∈ items, holds item := by
  induction values with
  | nil => exact ⟨[], rfl, nofun⟩
  | cons value values ih =>
    obtain ⟨⟨item, hitem, hholds⟩, hvalues⟩ := List.forall_mem_cons.mp h
    obtain ⟨items, hitems, hall⟩ := ih hvalues
    refine ⟨item :: items, ?_, List.forall_mem_cons.mpr ⟨hholds, hall⟩⟩
    rw [List.map_cons, hitem, hitems]

/-- The array over rows is never NULL, and has a value for each row. -/
theorem arrayOf_gives {item : Expr} {order : List SortKey} {records : List Record} {cell : Cell}
    (h : (arrayOf item order).Gives (.rows records) cell) :
    ∃ values, cell = some (.array values) ∧ ∀ value ∈ values, ∃ record ∈ records,
      ∃ found, item.Gives (.row record) found ∧ found.getD .null = value := by
  obtain ⟨found, hfound, ⟨-, hempty⟩ | ⟨hnonempty, rfl⟩⟩ := h
  · obtain ⟨values, hnone, rfl⟩ := hempty
    obtain rfl : values = [] := hnone
    exact ⟨[], rfl, nofun⟩
  · rcases hfound with ⟨-, rfl⟩ | ⟨-, ordered, values, hordered, hvalues, rfl⟩
    · exact absurd rfl hnonempty
    · refine ⟨values, rfl, ?_⟩
      intro value hvalue
      obtain ⟨record, hrecord, hgives⟩ := related_of_mem hvalues hvalue
      exact ⟨record, hordered.mem_iff.mp hrecord, hgives⟩

/-! ## Parts of a node -/

/-- The document of rows. -/
def rowsDocument (rows : List Row) : Json := .object [("rows", .array (rows.map .object))]

theorem rowsSelect_value {rows : Rows} {members : List (String × Expr)} {cell : Cell}
    (h : (rowsSelect rows (.object members)).Value cell) :
    ∃ answers : List Row, cell = some (rowsDocument answers) ∧
      ∀ answer ∈ answers, ∃ input, MembersGive members input answer := by
  obtain ⟨records, hsource, hgives⟩ := (value_single_gathered rfl).mp h
  obtain ⟨_, ⟨array, _, harray, rfl, rfl⟩, rfl⟩ := hgives
  obtain ⟨values, rfl, hvalues⟩ := arrayOf_gives harray
  have hanswers : ∀ value ∈ values, ∃ answer : Row, Json.object answer = value ∧
      ∃ input, MembersGive members input answer := by
    intro value hvalue
    obtain ⟨record, hrecord, found, hfound, rfl⟩ := hvalues value hvalue
    obtain ⟨input, houtputs⟩ := outputs_of_returns hsource hrecord
    obtain ⟨cell, rest, ⟨answer, hanswer, rfl⟩, -, rfl⟩ := houtputs
    have hcell : some (some (Json.object answer)) = some found := hfound
    obtain rfl := Option.some.inj hcell
    exact ⟨answer, rfl, input, hanswer⟩
  obtain ⟨answers, rfl, hall⟩ := items_of_forall hanswers
  exact ⟨answers, rfl, hall⟩

/-- Without an order, the rows of a node may be any rows that its members give. -/
theorem value_rowsSelect {rows : Rows} {members : List (String × Expr)} {records : List Record}
    {answers : List Row} (hkeys : rows.ordering.keys = [])
    (hgathers : (Expr.object members).gathers = false)
    (h : List.Forall₂ (fun record answer => MembersGive members (.row record) answer) records
      answers) : (rowsSelect rows (.object members)).Value (some (rowsDocument answers)) := by
  refine (value_single_gathered rfl).mpr
    ⟨answers.map fun answer => [(some "r", some (.object answer))], ?source, ?value⟩
  case source =>
    rw [hkeys, Source.Provides, Select.Returns]
    refine ⟨records, records.map .row, trivial, ⟨records, _, _, .refl _, fun _ => rfl, ?_, .refl _,
      .refl _, fun _ => rfl⟩, ?_⟩
    · simp [Divides, hgathers]
    · rw [List.forall₂_map_left_iff, List.forall₂_map_right_iff]
      exact h.imp fun record answer hmembers =>
        ⟨_, [], ⟨answer, hmembers, rfl⟩, rfl, rfl⟩
  case value =>
    refine ⟨_, ⟨some (.array (answers.map .object)), [], ?_, rfl, rfl⟩, rfl⟩
    cases answers with
    | nil => exact ⟨none, .inl ⟨rfl, rfl⟩, .inl ⟨rfl, [], rfl, rfl⟩⟩
    | cons answer answers =>
      refine ⟨_, .inr ⟨List.cons_ne_nil _ _, _, _, .refl _, ?_, rfl⟩,
        .inr ⟨Option.some_ne_none _, rfl⟩⟩
      rw [List.forall₂_map_left_iff, List.forall₂_map_right_iff]
      exact List.forall₂_same.mpr fun answer _ => ⟨_, rfl, rfl⟩

theorem aggregatesSelect_value {rows : Rows} {outputs : List (String × Summary)} {cell : Cell}
    (h : (aggregatesSelect rows outputs).Value cell) :
    ∃ values, cell = some (.object values) ∧ Entries.names values = Entries.names outputs := by
  cases outputs with
  | nil =>
    obtain ⟨values, hnone, rfl⟩ := (value_single_nothing rfl).mp h
    obtain rfl : values = [] := hnone
    exact ⟨[], rfl, rfl⟩
  | cons output outputs =>
    obtain ⟨records, -, values, hvalues, rfl⟩ := (value_single_gathered rfl).mp h
    refine ⟨values, rfl, ?_⟩
    rw [names_of_membersGive hvalues, Entries.names, List.map_map]
    rfl

/-- Numbered outputs keep their names. -/
theorem names_numbered {α β : Type} (number : Nat → α → β) (entries : Entries α) :
    Entries.names (entries.mapIdx fun i entry => (entry.1, number i entry.2)) =
      Entries.names entries := by
  induction entries generalizing number with
  | nil => rfl
  | cons entry entries ih =>
    rw [List.mapIdx_cons, Entries.names_cons, ih fun i => number (i + 1)]
    rfl

theorem groupsSelect_value {table : Table} {conditions : List Condition} {page : Page}
    {dimensions : List Expr} {outputs : List (String × Summary)} {cell : Cell}
    (h : (groupsSelect table conditions page dimensions outputs).Value cell) :
    ∃ groups : List Group, cell = some (.array (groups.map Group.json)) ∧
      ∀ group ∈ groups, group.dimensions.length = dimensions.length ∧
        Entries.names group.aggregates = Entries.names outputs := by
  obtain ⟨records, -, hgives⟩ := (value_single_gathered rfl).mp h
  obtain ⟨values, rfl, hvalues⟩ := arrayOf_gives hgives
  have hgroups : ∀ value ∈ values, ∃ group : Group, group.json = value ∧
      group.dimensions.length = dimensions.length ∧
        Entries.names group.aggregates = Entries.names outputs := by
    intro value hvalue
    obtain ⟨record, -, found, hfound, rfl⟩ := hvalues value hvalue
    obtain ⟨_, ⟨_, _, ⟨items, hitems, rfl⟩, ⟨_, _, ⟨members, hmembers, rfl⟩, hnone, rfl⟩, rfl⟩,
      rfl⟩ := hfound
    obtain rfl := hnone
    refine ⟨⟨items, members⟩, rfl, ?_, ?_⟩
    · rw [length_of_itemsGive hitems, List.length_mapIdx]
    · rw [names_of_membersGive hmembers]
      exact names_numbered (fun i _ => Expr.output (aggregateName i)) outputs
  obtain ⟨groups, rfl, hall⟩ := items_of_forall hgroups
  exact ⟨groups, rfl, hall⟩

/-! ## Nodes -/

/-- The selects of the node may have these documents. -/
structure Node.Returns (node : Node) (rowSet : RowSet) : Prop where
  rows : Option.Rel (fun select rows => select.Value (some (rowsDocument rows))) node.rows
    rowSet.rows
  aggregates : Option.Rel (fun select aggregates => select.Value (some (.object aggregates)))
    node.aggregates rowSet.aggregates
  groups : Option.Rel (fun select groups => select.Value (some (.array (groups.map Group.json))))
    node.groups rowSet.groups

/-- The documents of the node are those of rows, of aggregates and of groups, and never NULL. -/
structure Node.Documented (node : Node) : Prop where
  rows : ∀ select ∈ node.rows, ∀ cell, select.Value cell →
    ∃ rows, cell = some (rowsDocument rows)
  aggregates : ∀ select ∈ node.aggregates, ∀ cell, select.Value cell →
    ∃ aggregates, cell = some (.object aggregates)
  groups : ∀ select ∈ node.groups, ∀ cell, select.Value cell →
    ∃ groups : List Group, cell = some (.array (groups.map Group.json))

/-- A part of a child that is there is a member, and one that is not leaves none. -/
theorem part_gives {α : Type} {name : String} {part : Option Select} {embed : Select → Expr}
    {document : α → Json} {input : Input} {values : List (String × Json)}
    {holds : Select → α → Prop}
    (hpart : ∀ select ∈ part, ∀ cell, (embed select).Gives input cell →
      ∃ answer, holds select answer ∧ cell = some (document answer))
    (h : MembersGive (part.map fun select => (name, embed select)).toList input values) :
    ∃ answer : Option α, Option.Rel holds part answer ∧
      values = (answer.map fun answer => (name, document answer)).toList := by
  cases part with
  | none =>
    obtain rfl : values = [] := h
    exact ⟨none, .none, rfl⟩
  | some select =>
    obtain ⟨cell, rest, hgives, hnone, rfl⟩ := h
    obtain rfl : rest = [] := hnone
    obtain ⟨answer, hanswer, rfl⟩ := hpart select rfl cell hgives
    exact ⟨some answer, .some hanswer, rfl⟩

theorem gathers_childMembers (child : Node) :
    (Expr.object (childMembers child)).gathers = false := by
  obtain ⟨rows, aggregates, groups⟩ := child
  cases rows <;> cases aggregates <;> cases groups <;> rfl

/-- The members of a child are its parts in the order of a row set. -/
theorem childMembers_give {child : Node} {input : Input} {values : List (String × Json)}
    (hchild : child.Documented) (h : MembersGive (childMembers child) input values) :
    ∃ rowSet : RowSet, child.Returns rowSet ∧ Json.object values = rowSet.json := by
  obtain ⟨_, third, hbefore, hthird, rfl⟩ := membersGive_append h
  obtain ⟨first, second, hfirst, hsecond, rfl⟩ := membersGive_append hbefore
  have hrows : ∀ select ∈ child.rows, ∀ cell,
      (Expr.rowsOf (.subquery select)).Gives input cell →
        ∃ rows : List Row, select.Value (some (rowsDocument rows)) ∧
          cell = some (Json.ofList .object rows) := by
    rintro select hselect _ ⟨document, hdocument, rfl⟩
    obtain ⟨rows, rfl⟩ := hchild.rows select hselect document hdocument
    exact ⟨rows, hdocument, rfl⟩
  have haggregates : ∀ select ∈ child.aggregates, ∀ cell,
      (Expr.subquery select).Gives input cell → ∃ aggregates : Entries Json,
        select.Value (some (.object aggregates)) ∧ cell = some (.object aggregates) := by
    intro select hselect cell hcell
    obtain ⟨aggregates, rfl⟩ := hchild.aggregates select hselect cell hcell
    exact ⟨aggregates, hcell, rfl⟩
  have hgroups : ∀ select ∈ child.groups, ∀ cell,
      (Expr.subquery select).Gives input cell → ∃ groups : List Group,
        select.Value (some (.array (groups.map Group.json))) ∧
          cell = some (Json.ofList Group.json groups) := by
    intro select hselect cell hcell
    obtain ⟨groups, rfl⟩ := hchild.groups select hselect cell hcell
    exact ⟨groups, hcell, rfl⟩
  obtain ⟨rows, hrows, rfl⟩ := part_gives hrows hfirst
  obtain ⟨aggregates, haggregates, rfl⟩ := part_gives haggregates hsecond
  obtain ⟨groups, hgroups, rfl⟩ := part_gives hgroups hthird
  refine ⟨⟨rows, aggregates, groups⟩, ⟨hrows, haggregates, hgroups⟩, ?_⟩
  cases rows <;> cases aggregates <;> cases groups <;> rfl

/-- A child stands in the row of its parent as the document of its parts. -/
theorem childExpr_gives {child : Node} {input : Input} {cell : Cell} (hchild : child.Documented)
    (h : (childExpr child).Gives input cell) :
    ∃ rowSet : RowSet, child.Returns rowSet ∧ cell = some rowSet.json := by
  rcases childExpr_cases child with ⟨select, rfl⟩ | hcases
  · obtain ⟨found, hfound, hcell⟩ := h
    obtain ⟨rows, rfl⟩ := hchild.rows select rfl found hfound
    rcases hcell with ⟨hnull, -⟩ | ⟨-, rfl⟩
    · exact absurd hnull (Option.some_ne_none _)
    · exact ⟨⟨some rows, none, none⟩, ⟨.some hfound, .none, .none⟩, rfl⟩
  · rw [hcases] at h
    obtain ⟨found, hfound, hcell⟩ := h
    obtain ⟨values, hvalues, rfl⟩ :=
      (value_single_nothing (gathers_childMembers child)).mp hfound
    obtain ⟨rowSet, hrowSet, hvalues⟩ := childMembers_give hchild hvalues
    rcases hcell with ⟨hnull, -⟩ | ⟨-, rfl⟩
    · exact absurd hnull (Option.some_ne_none _)
    · exact ⟨rowSet, hrowSet, congrArg some hvalues⟩

end NestedSql.Compile
