import NestedSql.Proofs.Documents.Merged
import NestedSql.Proofs.Documents.Selects
import NestedSql.Proofs.Wire.Invariants

/-!
# Answers to queries

A row set answers a query if it has the parts that the query asks for, each row has exactly the
requested fields in their order, and each relationship field is itself the document of an answer.
Whatever values the documents of a node have, those that are read back answer its query.
-/

namespace NestedSql

/-! ## Row sets that are read -/

theorem Json.merged_present {members : List (String × Option Json)} (h : Entries.Distinct members) :
    (Json.present members).merged =
      .present (members.map fun member => (member.1, member.2.map merged)) := by
  have hnames : ∀ members : List (String × Option Json),
      (Entries.names (members.filterMap fun member => member.2.map (member.1, ·))).Sublist
        (Entries.names members) := by
    intro members
    induction members with
    | nil => exact .slnil
    | cons member members ih =>
      obtain ⟨name, _ | value⟩ := member
      · exact ih.cons name
      · exact ih.cons_cons name
  rw [present, merged_object (h.sublist (hnames members)), mergedMembers_eq, List.map_filterMap,
    present, List.filterMap_map]
  congr 2
  funext member
  obtain ⟨name, _ | value⟩ := member <;> rfl

def Group.merged (group : Group) : Group :=
  ⟨Json.mergedItems group.dimensions, Json.mergedMembers group.aggregates⟩

/-- The row set whose values are those that are read. -/
def RowSet.merged (rowSet : RowSet) : RowSet where
  rows := rowSet.rows.map (List.map Json.mergedMembers)
  aggregates := rowSet.aggregates.map Json.mergedMembers
  groups := rowSet.groups.map (List.map Group.merged)

/-- No row and no aggregates name a value twice. -/
structure RowSet.NamedOnce (rowSet : RowSet) : Prop where
  rows : ∀ rows ∈ rowSet.rows, ∀ row ∈ rows, Entries.Distinct row
  aggregates : ∀ aggregates ∈ rowSet.aggregates, Entries.Distinct aggregates
  groups : ∀ groups ∈ rowSet.groups, ∀ group ∈ groups, Entries.Distinct group.aggregates

theorem merged_groupJson {group : Group} (h : Entries.Distinct group.aggregates) :
    group.json.merged = group.merged.json := by
  have hdistinct : Entries.Distinct [("dimensions", Json.array group.dimensions),
      ("aggregates", Json.object group.aggregates)] := by
    simp [Entries.Distinct]
  rw [Group.json, Json.merged_object hdistinct, Json.mergedMembers, Json.mergedMembers,
    Json.mergedMembers, Json.merged, Json.merged_object h]
  rfl

theorem merged_ofList {α : Type} {write : α → Json} {change : α → α} {items : List α}
    (h : ∀ item ∈ items, (write item).merged = write (change item)) :
    (Json.ofList write items).merged = .ofList write (items.map change) := by
  rw [Json.ofList, Json.merged, Json.mergedItems_eq, List.map_map, Json.ofList, List.map_map]
  exact congrArg Json.array (List.map_congr_left h)

/-- The document of a row set is read as that of the row set that is read. -/
theorem RowSet.NamedOnce.merged_json {rowSet : RowSet} (h : rowSet.NamedOnce) :
    rowSet.json.merged = rowSet.merged.json := by
  obtain ⟨rows, aggregates, groups⟩ := rowSet
  have hrows : (rows.map (Json.ofList .object)).map Json.merged =
      (rows.map (List.map Json.mergedMembers)).map (Json.ofList .object) := by
    rw [Option.map_map, Option.map_map]
    exact Option.map_congr fun answers hanswers =>
      merged_ofList fun row hrow => Json.merged_object (h.rows answers hanswers row hrow)
  have haggregates : (aggregates.map Json.object).map Json.merged =
      (aggregates.map Json.mergedMembers).map .object := by
    rw [Option.map_map, Option.map_map]
    exact Option.map_congr fun answer hanswer => Json.merged_object (h.aggregates answer hanswer)
  have hgroups : (groups.map (Json.ofList Group.json)).map Json.merged =
      (groups.map (List.map Group.merged)).map (Json.ofList Group.json) := by
    rw [Option.map_map, Option.map_map]
    exact Option.map_congr fun answers hanswers =>
      merged_ofList fun group hgroup => merged_groupJson (h.groups answers hanswers group hgroup)
  rw [RowSet.json, Json.merged_present (by simp [Entries.Distinct])]
  simp only [List.map_cons, List.map_nil, hrows, haggregates, hgroups]
  rfl

/-! ## Answers -/

/-- The group has a value for each dimension and the requested aggregates. -/
structure Grouping.Answered (grouping : Grouping) (group : Group) : Prop where
  dimensions : group.dimensions.length = grouping.dimensions.length
  aggregates : Entries.names group.aggregates = Entries.names grouping.aggregates

mutual

/-- The row set has the parts that the query asks for. -/
def Query.Answered : Query → RowSet → Prop
  | ⟨fields, aggregates, _, _, _, _, groups⟩, rowSet =>
    rowsAnswered fields rowSet.rows ∧
      Option.Rel (fun requested answer => Entries.names answer = Entries.names requested)
        aggregates rowSet.aggregates ∧
      Option.Rel (fun grouping answers => ∀ group ∈ answers, grouping.Answered group) groups
        rowSet.groups

def rowsAnswered : Option (List (String × Field)) → Option (List Row) → Prop
  | none, answers => answers = none
  | some fields, answers => ∃ rows, answers = some rows ∧ ∀ row ∈ rows, rowAnswered fields row

/-- The row has a value for each field, under its name and in its place. -/
def rowAnswered : List (String × Field) → Row → Prop
  | [], row => row = []
  | (name, field) :: fields, row =>
    ∃ value rest, row = (name, value) :: rest ∧ field.Answered value ∧ rowAnswered fields rest

/-- A column may have any value; a relationship has the document of an answer. -/
def Field.Answered : Field → Json → Prop
  | .column _, _ => True
  | .relationship _ query, value => ∃ rowSet, query.Answered rowSet ∧ value = rowSet.json

end

theorem names_of_rowAnswered {fields : List (String × Field)} {row : Row}
    (h : rowAnswered fields row) : Entries.names row = Entries.names fields := by
  induction fields generalizing row with
  | nil =>
    obtain rfl : row = [] := h
    rfl
  | cons field fields ih =>
    obtain ⟨value, rest, rfl, -, hrest⟩ := h
    rw [Entries.names_cons, ih hrest]
    rfl

theorem Entries.Distinct.of_merged {entries : List (String × Json)} {names : List String}
    (hnames : Entries.names (Json.mergedMembers entries) = names) (h : names.Nodup) :
    Entries.Distinct entries := by
  rwa [Entries.Distinct, ← Json.names_mergedMembers, hnames]

/-- An answer to a query whose names are distinct names nothing twice. -/
theorem Query.Answered.namedOnce {query : Query} {rowSet : RowSet}
    (h : query.Answered rowSet.merged) (hnames : query.NamesDistinct) : rowSet.NamedOnce := by
  obtain ⟨fields, aggregates, _, _, _, _, groups⟩ := query
  obtain ⟨rows, entries, gathered⟩ := rowSet
  obtain ⟨hrows, haggregates, hgroups⟩ := h
  obtain ⟨hfields, hentries, hgrouping⟩ := hnames
  refine ⟨?rows, ?aggregates, ?groups⟩
  case rows =>
    rintro answers rfl row hrow
    cases fields with
    | none => exact absurd hrows (Option.some_ne_none _)
    | some fields =>
      obtain ⟨_, hanswers, hall⟩ := hrows
      obtain rfl := Option.some.inj hanswers
      exact .of_merged (names_of_rowAnswered (hall _ (List.mem_map_of_mem hrow))) hfields.1
  case aggregates =>
    rintro answer rfl
    cases haggregates with
    | some hanswer => exact .of_merged hanswer (hentries _ rfl)
  case groups =>
    rintro answers rfl group hgroup
    cases hgroups with
    | some hanswers =>
      exact .of_merged (hanswers _ (List.mem_map_of_mem hgroup)).aggregates (hgrouping _ rfl)

end NestedSql
