import NestedSql.Proofs.Catalog.Registration

/-!
# One collection for every table

A schema shows the tables of a listing if each has one collection with its columns and its storage
text. Tables are lost in two ways only: neighbours with one storage text are read as one table, and
a name under which a table is registered may be that of a table before it. Either leaves fewer
collections than tables.
-/

namespace NestedSql

namespace Catalog

/-- The type has the columns of the table in order and says what its comment says. -/
structure Table.HasType (table : Table) (type : RowType) : Prop where
  fields : List.Forall₂ (fun row field => row.column = field.1 ∧ row.field = .ok field.2)
    table.rows type.fields
  description : type.description = description table.comment

/-- Every table has one collection, which holds its storage text and its columns. -/
def Shows (schema : Schema) (tables : List Table) : Prop :=
  ∃ names : List String, names.Nodup ∧ names.Perm schema.collections ∧
    List.Forall₂ (fun name table => schema.storage? name = some table.storage ∧
      ∃ type, schema.rowType? name = some type ∧ table.HasType type) names tables

theorem Shows.length_collections {schema : Schema} {tables : List Table}
    (h : Shows schema tables) : schema.collections.length = tables.length := by
  obtain ⟨names, -, hperm, htables⟩ := h
  rw [← hperm.length_eq, htables.length_eq]

/-! ## Lines of a table -/

/-- The lines with the declarations that they have. -/
def withFields (rows : List ColumnRow) : List (ColumnRow × RowField) :=
  rows.filterMap fun row => row.field.toOption.map fun field => (row, field)

theorem field_of_mem_withFields {rows : List ColumnRow} {line : ColumnRow × RowField}
    (h : line ∈ withFields rows) : line.1.field = .ok line.2 := by
  obtain ⟨row, -, hrow⟩ := List.mem_filterMap.mp h
  cases hfield : row.field with
  | error error =>
    rw [hfield] at hrow
    cases hrow
  | ok field =>
    rw [hfield] at hrow
    obtain rfl := Option.some.inj hrow
    exact hfield

theorem map_fst_withFields {rows : List ColumnRow}
    (h : ∀ row ∈ rows, ∃ field, row.field = .ok field) :
    (withFields rows).map Prod.fst = rows := by
  induction rows with
  | nil => rfl
  | cons row rows ih =>
    obtain ⟨⟨field, hfield⟩, hrows⟩ := List.forall_mem_cons.mp h
    rw [withFields, List.filterMap_cons, hfield]
    exact congrArg (row :: ·) (ih hrows)

/-- The lines of the table with the declarations of its columns. -/
def Table.lines (table : Table) : List (ColumnRow × RowField) := withFields table.rows

/-- The table as it is registered if its lines are kept apart from all others. -/
def Table.stored (table : Table) : StoredTable where
  storage := table.storage
  name := table.name
  type :=
    ⟨Entries.ofPairs (table.lines.map fun line => (line.1.column, line.2)),
      description table.comment⟩

/-- The types of all columns of the table have field types. -/
def Table.Mapped (table : Table) : Prop :=
  ∀ column ∈ table.columns, (fieldType? column.type).isSome = true

instance (table : Table) : Decidable table.Mapped := inferInstanceAs (Decidable (∀ _ ∈ _, _))

namespace Table.Mapped

variable {table : Table} (h : table.Mapped)
include h

theorem field {row : ColumnRow} (hrow : row ∈ table.rows) : ∃ field, row.field = .ok field := by
  obtain ⟨column, hcolumn, rfl⟩ := List.mem_map.mp hrow
  obtain ⟨type, htype⟩ := Option.isSome_iff_exists.mp (h column hcolumn)
  exact ⟨_, by rw [ColumnRow.field, htype]; rfl⟩

theorem map_fst_lines : table.lines.map Prod.fst = table.rows :=
  map_fst_withFields fun _ => h.field

theorem mem_rows {line : ColumnRow × RowField} (hline : line ∈ table.lines) :
    line.1 ∈ table.rows := by
  rw [← h.map_fst_lines]
  exact List.mem_map_of_mem hline

theorem lines_ne_nil (hrows : table.rows ≠ []) : table.lines ≠ [] := by
  intro hnil
  refine hrows ?_
  rw [← h.map_fst_lines, hnil, List.map_nil]

/-- The lines of the table alone are read as the table. -/
theorem ofLines? (hrows : table.rows ≠ []) :
    StoredTable.ofLines? table.lines = some table.stored := by
  obtain ⟨⟨row, field⟩, lines, hlines⟩ := List.exists_cons_of_ne_nil (h.lines_ne_nil hrows)
  have hrow : row ∈ table.rows := h.mem_rows (hlines ▸ List.mem_cons_self)
  obtain ⟨column, -, rfl⟩ := List.mem_map.mp hrow
  rw [Table.stored, hlines]
  rfl

theorem hasType (hnames : (table.columns.map Column.name).Nodup) :
    table.HasType table.stored.type := by
  have hcolumns : (table.lines.map fun line => line.1.column) = table.columns.map Column.name := by
    have hrows := congrArg (List.map ColumnRow.column) h.map_fst_lines
    rwa [Table.rows, List.map_map, List.map_map] at hrows
  have hdistinct : Entries.Distinct (table.lines.map fun line => (line.1.column, line.2)) := by
    rw [Entries.Distinct, Entries.names, List.map_map]
    exact hcolumns ▸ hnames
  have hfields : List.Forall₂ (fun row field => row.column = field.1 ∧ row.field = .ok field.2)
      (table.lines.map Prod.fst) (table.lines.map fun line => (line.1.column, line.2)) := by
    rw [List.forall₂_map_left_iff, List.forall₂_map_right_iff, List.forall₂_same]
    exact fun line hline => ⟨rfl, field_of_mem_withFields hline⟩
  rw [h.map_fst_lines] at hfields
  refine ⟨?_, rfl⟩
  rwa [Table.stored, Entries.ofPairs_of_distinct hdistinct]

end Table.Mapped

/-! ## Tables kept apart -/

/-- The lines of all listed tables with the declarations of their columns. -/
def listedLines (tables : List Table) : List (ColumnRow × RowField) :=
  (listed tables).flatMap Table.lines

section Apart

variable {tables : List Table} (h : ∀ table ∈ listed tables, table.Mapped)
include h

theorem declared_listing : declared (listing tables) = .ok (listedLines tables) := by
  refine declared_eq_ok.mpr ⟨?_, fun line hline => ?_⟩
  · rw [listing_eq, listedLines, List.map_flatMap]
    exact List.flatMap_congr fun table htable => (h table htable).map_fst_lines
  · obtain ⟨table, -, hline⟩ := List.mem_flatMap.mp hline
    exact field_of_mem_withFields hline

/-- Tables are read run by run. -/
theorem storedTables_listing : storedTables (listedLines tables) =
    (runs Table.storage (listed tables)).filterMap fun run =>
      StoredTable.ofLines? (run.flatMap Table.lines) := by
  have hne : ∀ table ∈ listed tables, table.lines ≠ [] := fun table htable =>
    (h table htable).lines_ne_nil (rows_ne_nil htable)
  have hkey : ∀ table ∈ listed tables, ∀ line ∈ table.lines, line.1.storage = table.storage :=
    fun table htable line hline => storage_of_mem_rows ((h table htable).mem_rows hline)
  rw [storedTables_eq, listedLines, runs_flatMap hne hkey, List.filterMap_map]
  rfl

theorem length_storedTables_le : (storedTables (listedLines tables)).length ≤
    (runs Table.storage (listed tables)).length := by
  rw [storedTables_listing h]
  exact List.length_filterMap_le _ _

theorem storedTables_of_isChain
    (hchain : (listed tables).IsChain fun first second => first.storage ≠ second.storage) :
    storedTables (listedLines tables) = (listed tables).map Table.stored := by
  rw [storedTables_listing h, runs_of_isChain hchain, List.filterMap_map, ← List.filterMap_eq_map]
  refine List.filterMap_congr fun table htable => ?_
  rw [Function.comp_apply, List.flatMap_singleton]
  exact (h table htable).ofLines? (rows_ne_nil htable)

end Apart

/-! ## Names kept apart -/

section Names

variable {entries : List (String × StoredTable)} {tables : List Table}

theorem lastUnder?_of_mem (hdistinct : Entries.Distinct entries) {name : String}
    {stored : StoredTable} (h : (name, stored) ∈ entries) :
    lastUnder? name entries = some stored := by
  refine Entries.get?_of_mem ?_ (List.mem_reverse.mpr h)
  rw [Entries.Distinct, Entries.names, List.map_reverse]
  exact (List.reverse_perm _).nodup_iff.mpr hdistinct

theorem names_types : Entries.names (entries.map fun entry => (entry.1, entry.2.type)) =
    Entries.names entries := by
  rw [Entries.names, List.map_map]
  rfl

theorem collections_registered (hdistinct : Entries.Distinct entries) :
    (entries.foldl register .empty).collections = Entries.names entries := by
  have htypes : Entries.Distinct (entries.map fun entry => (entry.1, entry.2.type)) := by
    rwa [Entries.Distinct, names_types]
  rw [collections_foldl_register entries .empty rfl, rowTypes_registered,
    Entries.ofPairs_of_distinct htypes, names_types]

/-- Tables that are registered under different names are all shown. -/
theorem shows_of_distinct (hdistinct : Entries.Distinct entries)
    (hstored : entries.map Prod.snd = tables.map Table.stored)
    (htypes : ∀ table ∈ tables, table.HasType table.stored.type) :
    Shows (entries.foldl register .empty) tables := by
  have htables : List.Forall₂ (fun stored table =>
      stored = Table.stored table ∧ table.HasType stored.type) (entries.map Prod.snd) tables := by
    rw [hstored, List.forall₂_map_left_iff, List.forall₂_same]
    exact fun table htable => ⟨rfl, htypes table htable⟩
  have hlast : ∀ entry ∈ entries, lastUnder? entry.1 entries = some entry.2 :=
    fun _ hentry => lastUnder?_of_mem hdistinct hentry
  refine ⟨Entries.names entries, hdistinct, ?collections, ?tables⟩
  case collections => rw [collections_registered hdistinct]
  case tables =>
    rw [Entries.names, List.forall₂_map_left_iff]
    rw [List.forall₂_map_left_iff] at htables
    refine ((List.forall₂_and_left _ _).mpr ⟨hlast, htables⟩).imp fun entry table h => ?_
    obtain ⟨hlast, hentry, htype⟩ := h
    rw [storage?_registered, rowType?_registered, hlast]
    exact ⟨congrArg (some ∘ StoredTable.storage) hentry, _, rfl, htype⟩

/-- No registration leads to more than one collection. -/
theorem length_collections_le (entries : List (String × StoredTable)) :
    (entries.foldl register .empty).collections.length ≤ entries.length := by
  have h := Entries.length_ofPairs_le (entries.map fun entry => (entry.1, entry.2.type))
  rwa [← length_collections_registered, List.length_map] at h

/-- Only different names lead to as many collections as registrations. -/
theorem distinct_of_length_collections
    (h : (entries.foldl register .empty).collections.length = entries.length) :
    Entries.Distinct entries := by
  rw [length_collections_registered] at h
  have hdistinct := Entries.distinct_of_length_ofPairs (h.trans (List.length_map _).symm)
  rwa [Entries.Distinct, names_types] at hdistinct

end Names

/-! ## Tables shown -/

section Shown

variable {tables : List Table} (hmapped : ∀ table ∈ listed tables, table.Mapped)
include hmapped

/-- What is registered are the tables that the lines are read as. -/
theorem registered_listing : registered (listing tables) =
    .ok (registrations .empty (storedTables (listedLines tables))) :=
  registered_eq_ok.mpr ⟨_, declared_listing hmapped, rfl⟩

/-- Different names without dots keep tables and registrations apart. -/
theorem apart_of_plain_names (hnames : ((listed tables).map Table.name).Nodup)
    (hundotted : ∀ table ∈ listed tables, table.Undotted) :
    ((listed tables).IsChain fun first second => first.storage ≠ second.storage) ∧
      Entries.Distinct (registrations .empty (storedTables (listedLines tables))) := by
  have hchain : (listed tables).IsChain fun first second => first.storage ≠ second.storage := by
    have hpairwise := List.pairwise_map.mp hnames
    refine hpairwise.isChain.imp_of_mem_imp fun first second hfirst hsecond hne hstorage => hne ?_
    have hparts := Sql.parts_eq_iff.mpr ⟨hundotted first hfirst, rfl⟩
    have hothers := Sql.parts_eq_iff.mpr ⟨hundotted second hsecond, hstorage⟩
    have hlists := hparts.symm.trans hothers
    simp only [List.cons.injEq] at hlists
    exact hlists.2.2.1
  refine ⟨hchain, ?_⟩
  have hstored : ((listed tables).map Table.stored).map StoredTable.name =
      (listed tables).map Table.name := List.map_map
  rw [storedTables_of_isChain hmapped hchain,
    registrations_of_names (hstored ▸ hnames) .empty fun _ _ => rfl,
    Entries.Distinct, Entries.names, List.map_map]
  exact hstored ▸ hnames

end Shown

/-- If all columns have field types, the schema shows all tables of the listing exactly if no two
neighbours have one storage text and no name is taken twice. This holds of tables with different
names without dots. -/
theorem tables_keep_collections_iff {tables : List Table}
    (hmapped : ∀ table ∈ listed tables, table.Mapped)
    (hcolumns : ∀ table ∈ listed tables, (table.columns.map Column.name).Nodup) :
    ∃ schema entries, introspect (listing tables) = .ok schema ∧
      registered (listing tables) = .ok entries ∧
      (Shows schema (listed tables) ↔
        ((listed tables).IsChain fun first second => first.storage ≠ second.storage) ∧
          Entries.Distinct entries) ∧
      (((listed tables).map Table.name).Nodup → (∀ table ∈ listed tables, table.Undotted) →
        Shows schema (listed tables)) := by
  have hregistered := registered_listing hmapped
  have hplain := apart_of_plain_names hmapped
  have hstored := map_snd_registrations (storedTables (listedLines tables)) .empty
  generalize registrations .empty (storedTables (listedLines tables)) = entries
    at hregistered hplain hstored
  have hkept : ((listed tables).IsChain fun first second => first.storage ≠ second.storage) ∧
      Entries.Distinct entries → Shows (entries.foldl register .empty) (listed tables) := by
    rintro ⟨hchain, hdistinct⟩
    have htables := hstored.trans (storedTables_of_isChain hmapped hchain)
    exact shows_of_distinct hdistinct htables fun table htable =>
      (hmapped table htable).hasType (hcolumns table htable)
  refine ⟨entries.foldl register .empty, entries, introspect_eq_ok.mpr ⟨entries, hregistered, rfl⟩,
    hregistered, ⟨fun hshows => ?lost, hkept⟩, fun hnames hundotted =>
      hkept (hplain hnames hundotted)⟩
  case lost =>
    -- There are at most as many collections as registrations, runs and tables in turn.
    have hcollections := hshows.length_collections
    have hnames := length_collections_le entries
    have hentries : entries.length = (storedTables (listedLines tables)).length := by
      rw [← hstored, List.length_map]
    have hlines := length_storedTables_le hmapped
    have hruns : (runs Table.storage (listed tables)).length ≤ (listed tables).length :=
      length_runs_le
    exact ⟨isChain_of_length_runs (by omega), distinct_of_length_collections (by omega)⟩

/-- The second `users` is shown as `main_users`. -/
theorem renamed_users_shown :
    ∃ schema, introspect (listing namesakes) = .ok schema ∧ Shows schema namesakes := by
  have hmapped : ∀ table ∈ listed namesakes, table.Mapped := by
    rw [listed_namesakes]
    decide
  obtain ⟨schema, entries, hschema, hentries, hiff, -⟩ := tables_keep_collections_iff hmapped
    (by rw [listed_namesakes]; decide)
  obtain rfl := Except.ok.inj (hentries.symm.trans registered_namesakes)
  rw [listed_namesakes, Entries.Distinct] at hiff
  exact ⟨schema, hschema, hiff.mpr (by decide)⟩

/-- All tables have lines, columns with field types and different names, and are not all shown. -/
def Loses (tables : List Table) : Prop :=
  listed tables = tables ∧ (∀ table ∈ tables, table.Mapped) ∧
    (∀ table ∈ tables, (table.columns.map Column.name).Nodup) ∧
    ∃ schema, introspect (listing tables) = .ok schema ∧ ¬Shows schema tables

/-- The name that `users` gets is taken from a table, and two tables with one storage text are read
as one. -/
theorem tables_overwritten_and_merged :
    Loses [.single "app" "users" "id", .single "main" "main_users" "role",
      .single "main" "users" "email"] ∧
    Loses [.single "a" "b.c" "x", .single "a.b" "c" "y"] := by
  refine ⟨?overwritten, ?merged⟩
  case overwritten =>
    have hlisted : listed [.single "app" "users" "id", .single "main" "main_users" "role",
        .single "main" "users" "email"] = _ := listed_eq_self (by decide) (by decide)
    have hregistered : registered (listing [.single "app" "users" "id",
        .single "main" "main_users" "role", .single "main" "users" "email"]) = .ok
      [("users", Table.stored (.single "app" "users" "id")),
        ("main_users", Table.stored (.single "main" "main_users" "role")),
        ("main_users", Table.stored (.single "main" "users" "email"))] := by
      rw [listing_eq, hlisted]
      rfl
    exact ⟨hlisted, by decide, by decide, _, introspect_eq_ok.mpr ⟨_, hregistered, rfl⟩,
      fun hshows => absurd hshows.length_collections (by decide)⟩
  case merged =>
    have hlisted : listed [.single "a" "b.c" "x", .single "a.b" "c" "y"] = _ :=
      listed_eq_self (by decide) (by decide)
    have hregistered : registered (listing [.single "a" "b.c" "x", .single "a.b" "c" "y"]) = .ok
      [("b.c", ⟨"memory.a.b.c", "b.c",
        [("x", ⟨.named "Int", none⟩), ("y", ⟨.named "Int", none⟩)], none⟩)] := by
      rw [listing_eq, hlisted]
      rfl
    exact ⟨hlisted, by decide, by decide, _, introspect_eq_ok.mpr ⟨_, hregistered, rfl⟩,
      fun hshows => absurd hshows.length_collections (by decide)⟩

end Catalog

end NestedSql
