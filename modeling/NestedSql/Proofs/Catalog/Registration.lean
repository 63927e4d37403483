import NestedSql.Compile.Context
import NestedSql.Proofs.Catalog.Identifiers
import NestedSql.Proofs.Catalog.Runs
import NestedSql.Proofs.Compile.Steps

/-!
# Registered collections

Tables are registered one after the other, each under a name that depends on those before it. The
schema shows for every name what was registered under it last. So a query of the collection reads
the table exactly if no later table took its name and the dots of the storage text are marks.
-/

namespace NestedSql

namespace Entries

variable {α : Type}

/-- Of pairs with one name the last is found. -/
theorem get?_ofPairs (name : String) (pairs : List (String × α)) :
    get? name (ofPairs pairs) = get? name pairs.reverse := by
  have hfold : ∀ (pairs : List (String × α)) (entries : Entries α),
      get? name (pairs.foldl (fun entries pair => put pair.1 pair.2 entries) entries) =
        (get? name pairs.reverse).or (get? name entries) := by
    intro pairs
    induction pairs with
    | nil => exact fun _ => rfl
    | cons pair pairs ih =>
      intro entries
      rw [List.foldl_cons, ih, List.reverse_cons, get?_append, Option.or_assoc]
      by_cases hname : name = pair.1
      · rw [hname, get?_put_self, get?, if_pos rfl, Option.some_or]
      · rw [get?_put_of_ne hname, get?, if_neg (Ne.symm hname), get?_nil, Option.none_or]
  rw [ofPairs, hfold, get?_nil, Option.or_none]

theorem length_put (name : String) (value : α) (entries : Entries α) :
    (put name value entries).length =
      if name ∈ names entries then entries.length else entries.length + 1 := by
  have hnames := congrArg List.length (names_put name value entries)
  rw [names, List.length_map] at hnames
  rw [hnames]
  split
  · rw [names, List.length_map]
  · rw [List.length_append, names, List.length_map]
    rfl

theorem length_puts_le (pairs : List (String × α)) : ∀ entries : Entries α,
    (pairs.foldl (fun entries pair => put pair.1 pair.2 entries) entries).length ≤
      entries.length + pairs.length := by
  induction pairs with
  | nil => exact fun _ => Nat.le_refl _
  | cons pair pairs ih =>
    intro entries
    have hput := length_put pair.1 pair.2 entries
    have hrest := ih (put pair.1 pair.2 entries)
    rw [List.foldl_cons, List.length_cons]
    split at hput <;> omega

theorem length_ofPairs_le (pairs : List (String × α)) : (ofPairs pairs).length ≤ pairs.length := by
  have h := length_puts_le pairs []
  rwa [List.length_nil, Nat.zero_add] at h

/-- Pairs that all keep an entry of their own have different names. -/
theorem distinct_of_length_ofPairs {pairs : List (String × α)}
    (h : (ofPairs pairs).length = pairs.length) : Distinct pairs := by
  have hfold : ∀ (pairs : List (String × α)) (entries : Entries α), Distinct entries →
      (pairs.foldl (fun entries pair => put pair.1 pair.2 entries) entries).length =
        entries.length + pairs.length → Distinct (entries ++ pairs) := by
    intro pairs
    induction pairs with
    | nil =>
      intro entries hdistinct _
      rwa [List.append_nil]
    | cons pair pairs ih =>
      intro entries hdistinct hlength
      have hput := length_put pair.1 pair.2 entries
      have hrest := length_puts_le pairs (put pair.1 pair.2 entries)
      rw [List.foldl_cons, List.length_cons] at hlength
      by_cases hname : pair.1 ∈ names entries
      · rw [if_pos hname] at hput
        omega
      · rw [if_neg hname] at hput
        have hnext := ih (put pair.1 pair.2 entries) (distinct_put pair.1 pair.2 hdistinct)
          (by omega)
        rwa [put_of_notMem hname, List.append_assoc] at hnext
  have hall := hfold pairs [] List.nodup_nil (by rwa [List.length_nil, Nat.zero_add])
  rwa [List.nil_append] at hall

end Entries

namespace Catalog

open Compile (bind_eq_ok pure_eq_ok)

/-! ## Tables of a listing -/

/-- The tables that have lines in the listing, in its order. -/
def listed (tables : List Table) : List Table :=
  ((tables.filter Table.isListed).mergeSort Table.before).filter fun table =>
    !table.columns.isEmpty

section Listed

variable {tables : List Table} {table : Table}

theorem mem_listed :
    table ∈ listed tables ↔ (table ∈ tables ∧ table.isListed = true) ∧ table.columns ≠ [] := by
  rw [listed, List.mem_filter, List.mem_mergeSort, List.mem_filter, Bool.not_eq_true',
    List.isEmpty_eq_false_iff]

/-- A sorted list of tables with columns is listed as it is. -/
theorem listed_eq_self
    (hlisted : ∀ table ∈ tables, table.isListed = true ∧ table.columns.isEmpty = false)
    (hsorted : tables.Pairwise fun first second => first.before second = true) :
    listed tables = tables := by
  rw [listed, List.filter_eq_self.mpr fun table h => (hlisted table h).1,
    List.mergeSort_of_pairwise hsorted, List.filter_eq_self.mpr fun table h => ?_]
  rw [(hlisted table h).2, Bool.not_false]

theorem rows_ne_nil (h : table ∈ listed tables) : table.rows ≠ [] := by
  rw [Table.rows, ne_eq, List.map_eq_nil_iff]
  exact (mem_listed.mp h).2

theorem storage_of_mem_rows {row : ColumnRow} (h : row ∈ table.rows) :
    row.storage = table.storage := by
  obtain ⟨column, -, rfl⟩ := List.mem_map.mp h
  rfl

/-- A listing is the lines of the tables that have any. -/
theorem listing_eq (tables : List Table) : listing tables = (listed tables).flatMap Table.rows := by
  have hfilter : ∀ tables : List Table, tables.flatMap Table.rows =
      (tables.filter fun table => !table.columns.isEmpty).flatMap Table.rows := by
    intro tables
    induction tables with
    | nil => rfl
    | cons table tables ih =>
      rw [List.flatMap_cons, ih, List.filter_cons]
      split
      · rw [List.flatMap_cons]
      · next hempty =>
        rw [Bool.not_eq_true, Bool.not_eq_false', List.isEmpty_iff] at hempty
        rw [Table.rows, hempty, List.map_nil, List.nil_append]
  rw [listing, hfilter, listed]

end Listed

/-- The lines with the declarations of their columns. -/
def declared (rows : List ColumnRow) : Except UnsupportedType (List (ColumnRow × RowField)) :=
  rows.mapM fun row => do return (row, ← row.field)

theorem declared_eq_ok {rows : List ColumnRow} {lines : List (ColumnRow × RowField)} :
    declared rows = .ok lines ↔
      lines.map Prod.fst = rows ∧ ∀ line ∈ lines, line.1.field = .ok line.2 := by
  rw [declared]
  induction rows generalizing lines with
  | nil =>
    rw [List.mapM_nil, pure_eq_ok, List.map_eq_nil_iff, eq_comm]
    exact ⟨fun h => ⟨h, h ▸ List.forall_mem_nil _⟩, And.left⟩
  | cons row rows ih =>
    rw [Compile.mapM_cons_eq_ok]
    simp only [bind_eq_ok, pure_eq_ok, ih]
    constructor
    · rintro ⟨_, ⟨field, hfield, rfl⟩, lines, ⟨rfl, hlines⟩, rfl⟩
      exact ⟨rfl, List.forall_mem_cons.mpr ⟨hfield, hlines⟩⟩
    · rintro ⟨hrows, hlines⟩
      obtain ⟨line, lines, rfl, rfl, rfl⟩ := List.map_eq_cons_iff.mp hrows
      obtain ⟨hline, hlines⟩ := List.forall_mem_cons.mp hlines
      exact ⟨_, ⟨line.2, hline, rfl⟩, lines, ⟨rfl, hlines⟩, rfl⟩

/-! ## What is registered -/

/-- The tables with the names under which they are registered, one after the other. -/
def registrations (schema : Schema) : List StoredTable → List (String × StoredTable)
  | [] => []
  | table :: tables =>
    (collectionName schema table, table) :: registrations (registerTable schema table) tables

/-- The registrations that a listing leads to. -/
def registered (rows : List ColumnRow) : Except UnsupportedType (List (String × StoredTable)) := do
  return registrations .empty (storedTables (← declared rows))

theorem registered_eq_ok {rows : List ColumnRow} {entries : List (String × StoredTable)} :
    registered rows = .ok entries ↔
      ∃ lines, declared rows = .ok lines ∧ registrations .empty (storedTables lines) = entries := by
  rw [registered]
  simp only [bind_eq_ok, pure_eq_ok]

/-- The last table that was registered under a name. -/
def lastUnder? (name : String) (entries : List (String × StoredTable)) : Option StoredTable :=
  Entries.get? name entries.reverse

/-- Registers one entry. -/
def register (schema : Schema) (entry : String × StoredTable) : Schema :=
  schema.register entry.1 entry.2.storage entry.2.type

theorem map_snd_registrations (tables : List StoredTable) : ∀ schema : Schema,
    (registrations schema tables).map Prod.snd = tables := by
  induction tables with
  | nil => exact fun _ => rfl
  | cons table tables ih =>
    intro schema
    rw [registrations, List.map_cons, ih]

/-- Tables with different names are registered under them. -/
theorem registrations_of_names {tables : List StoredTable}
    (hnames : (tables.map StoredTable.name).Nodup) : ∀ schema : Schema,
    (∀ table ∈ tables, schema.rowType? table.name = none) →
      registrations schema tables = tables.map fun table => (table.name, table) := by
  induction tables with
  | nil => exact fun _ _ => rfl
  | cons table tables ih =>
    intro schema hnew
    obtain ⟨htable, htables⟩ := List.forall_mem_cons.mp hnew
    obtain ⟨hname, hnames⟩ := List.nodup_cons.mp hnames
    have hcollection : collectionName schema table = table.name := by
      rw [collectionName, htable, Option.isSome_none, if_neg Bool.false_ne_true]
    rw [registrations, registerTable, hcollection, List.map_cons, ih hnames]
    intro other hother
    have hne : other.name ≠ table.name := fun heq => hname (heq ▸ List.mem_map_of_mem hother)
    rw [Schema.rowType?_register_of_ne hne, htables other hother]

/-- The three lists of the schema that registrations lead to. -/
theorem foldl_registerTable (tables : List StoredTable) : ∀ schema : Schema,
    tables.foldl registerTable schema =
      (registrations schema tables).foldl register schema := by
  induction tables with
  | nil => exact fun _ => rfl
  | cons table tables ih =>
    intro schema
    rw [List.foldl_cons, ih]
    rfl

/-! ## The schema of all registrations -/

section Folds

variable {α : Type} (name storage : α → String) (type : α → RowType) (items : List α)

theorem storage_foldl_register : ∀ schema : Schema,
    (items.foldl (fun schema item => schema.register (name item) (storage item) (type item))
      schema).storage =
    (items.map fun item => (name item, storage item)).foldl
      (fun storage pair => Entries.put pair.1 pair.2 storage) schema.storage := by
  induction items with
  | nil => exact fun _ => rfl
  | cons item items ih => exact fun schema => ih _

theorem rowTypes_foldl_register : ∀ schema : Schema,
    (items.foldl (fun schema item => schema.register (name item) (storage item) (type item))
      schema).rowTypes =
    (items.map fun item => (name item, type item)).foldl
      (fun rowTypes pair => Entries.put pair.1 pair.2 rowTypes) schema.rowTypes := by
  induction items with
  | nil => exact fun _ => rfl
  | cons item items ih => exact fun schema => ih _

end Folds

section Schema

variable (entries : List (String × StoredTable))

/-- The collections are those that have a row type. -/
theorem collections_foldl_register : ∀ schema : Schema,
    schema.collections = Entries.names schema.rowTypes →
      (entries.foldl register schema).collections =
        Entries.names (entries.foldl register schema).rowTypes := by
  induction entries with
  | nil => exact fun _ h => h
  | cons entry entries ih =>
    intro schema h
    refine ih (register schema entry) ?_
    show (if entry.1 ∈ schema.collections then _ else _) = Entries.names (Entries.put _ _ _)
    rw [Entries.names_put, h]

theorem storage_registered : (entries.foldl register .empty).storage =
    Entries.ofPairs (entries.map fun entry => (entry.1, entry.2.storage)) :=
  storage_foldl_register _ _ _ entries .empty

theorem rowTypes_registered : (entries.foldl register .empty).rowTypes =
    Entries.ofPairs (entries.map fun entry => (entry.1, entry.2.type)) :=
  rowTypes_foldl_register _ _ _ entries .empty

theorem length_collections_registered : (entries.foldl register .empty).collections.length =
    (Entries.ofPairs (entries.map fun entry => (entry.1, entry.2.type))).length := by
  rw [collections_foldl_register entries .empty rfl, rowTypes_registered, Entries.names,
    List.length_map]

/-- The schema shows what was registered last. -/
theorem storage?_registered (name : String) : (entries.foldl register .empty).storage? name =
    (lastUnder? name entries).map StoredTable.storage := by
  rw [Schema.storage?, storage_registered, Entries.get?_ofPairs, ← List.map_reverse,
    Entries.get?_mapped, lastUnder?]

theorem rowType?_registered (name : String) : (entries.foldl register .empty).rowType? name =
    (lastUnder? name entries).map StoredTable.type := by
  rw [Schema.rowType?, rowTypes_registered, Entries.get?_ofPairs, ← List.map_reverse,
    Entries.get?_mapped, lastUnder?]

end Schema

theorem lastUnder?_isSome {entries : List (String × StoredTable)} {name : String}
    {table : StoredTable} (h : (name, table) ∈ entries) :
    ∃ last, lastUnder? name entries = some last := by
  cases hlast : lastUnder? name entries with
  | some last => exact ⟨last, rfl⟩
  | none =>
    refine absurd (List.mem_map_of_mem (List.mem_reverse.mpr h)) (Entries.get?_eq_none.mp hlast)

theorem introspect_eq_ok {rows : List ColumnRow} {schema : Schema} :
    introspect rows = .ok schema ↔
      ∃ entries, registered rows = .ok entries ∧ entries.foldl register .empty = schema := by
  rw [introspect, ← declared]
  simp only [registered_eq_ok, bind_eq_ok, pure_eq_ok, foldl_registerTable]
  constructor
  · rintro ⟨lines, hlines, rfl⟩
    exact ⟨_, ⟨lines, hlines, rfl⟩, rfl⟩
  · rintro ⟨entries, ⟨lines, hlines, rfl⟩, rfl⟩
    exact ⟨lines, hlines, rfl⟩

/-! ## Tables that queries read -/

/-- Every run of lines with one storage text is read as a table. -/
theorem storedTables_eq (lines : List (ColumnRow × RowField)) : storedTables lines =
    (runs (fun line => line.1.storage) lines).filterMap StoredTable.ofLines? := rfl

/-- Some table is stored for every line of a listing. -/
theorem stored_of_line {lines : List (ColumnRow × RowField)} {line : ColumnRow × RowField}
    (h : line ∈ lines) : ∃ stored ∈ storedTables lines, stored.storage = line.1.storage := by
  rw [← flatten_runs (fun line => line.1.storage) lines] at h
  obtain ⟨run, hrun, hline⟩ := List.mem_flatten.mp h
  obtain ⟨first, rest, rfl, hstorage⟩ := run_spec hrun
  rw [storedTables_eq]
  exact ⟨_, List.mem_filterMap.mpr ⟨_, hrun, rfl⟩, (hstorage line hline).symm⟩

/-- A listed table is registered for its storage text. -/
theorem registered_of_listed {tables : List Table} {entries : List (String × StoredTable)}
    (h : registered (listing tables) = .ok entries) {table : Table}
    (htable : table ∈ listed tables) : ∃ entry ∈ entries, entry.2.storage = table.storage := by
  obtain ⟨lines, hlines, rfl⟩ := registered_eq_ok.mp h
  obtain ⟨row, hrow⟩ := List.exists_mem_of_ne_nil _ (rows_ne_nil htable)
  have hmem : row ∈ lines.map Prod.fst := by
    rw [(declared_eq_ok.mp hlines).1, listing_eq]
    exact List.mem_flatMap.mpr ⟨table, htable, hrow⟩
  obtain ⟨line, hline, rfl⟩ := List.mem_map.mp hmem
  obtain ⟨stored, hstored, hstorage⟩ := stored_of_line hline
  rw [← map_snd_registrations (storedTables lines) .empty] at hstored
  obtain ⟨entry, hentry, rfl⟩ := List.mem_map.mp hstored
  exact ⟨entry, hentry, hstorage.trans (storage_of_mem_rows hrow)⟩

/-- A table in memory with one column of whole numbers. -/
def Table.single (schema name column : String) : Table :=
  ⟨"memory", schema, name, [⟨column, "INTEGER", true, none⟩], none, false⟩

/-- Two tables with one name in two schemas. -/
def namesakes : List Table := [.single "app" "users" "id", .single "main" "users" "email"]

theorem listed_namesakes : listed namesakes = namesakes :=
  listed_eq_self (by decide) (by decide)

theorem registered_namesakes : registered (listing namesakes) = .ok
    [("users", ⟨"memory.app.users", "users", [("id", ⟨.named "Int", none⟩)], none⟩),
      ("main_users", ⟨"memory.main.users", "users", [("email", ⟨.named "Int", none⟩)], none⟩)] := by
  rw [listing_eq, listed_namesakes]
  rfl

/-- A query of a collection reads a table exactly if the names of the table have no dots and what
was registered last under the name of the collection has its storage text. Every table of the
listing is registered. -/
theorem from_items_denote_tables_iff {tables : List Table} {schema : Schema}
    (h : introspect (listing tables) = .ok schema) :
    ∃ entries, registered (listing tables) = .ok entries ∧
      (∀ table ∈ listed tables, ∃ entry ∈ entries, entry.2.storage = table.storage) ∧
      ∀ entry ∈ entries, ∀ table : Table, ∀ context : Compile.Context, context.schema = schema →
        ∃ storage, context.storage entry.1 = .ok storage ∧
          (Sql.table storage = table.identifier ↔ table.Undotted ∧
            ∃ last, lastUnder? entry.1 entries = some last ∧ last.storage = table.storage) := by
  obtain ⟨entries, hentries, rfl⟩ := introspect_eq_ok.mp h
  refine ⟨entries, hentries, fun table => registered_of_listed hentries, ?_⟩
  intro ⟨name, stored⟩ hentry table context hschema
  obtain ⟨last, hlast⟩ := lastUnder?_isSome hentry
  have hstorage : context.storage name = .ok last.storage := by
    rw [Compile.Context.storage_eq_ok, hschema, storage?_registered, hlast]
    rfl
  refine ⟨last.storage, hstorage, quoted_eq_identifier_iff.trans (and_congr_right fun _ => ?_)⟩
  dsimp only
  rw [hlast]
  simp only [Option.some_inj, exists_eq_left']

/-- The collection that the second `users` is renamed to reads that table. -/
theorem renamed_collection_reads_own_table : ∃ schema,
    introspect (listing namesakes) = .ok schema ∧
    ∀ context : Compile.Context, context.schema = schema →
      ∃ storage, context.storage "main_users" = .ok storage ∧
        Sql.table storage = (Table.single "main" "users" "email").identifier := by
  have hschema := introspect_eq_ok.mpr ⟨_, registered_namesakes, rfl⟩
  refine ⟨_, hschema, fun context hcontext => ?_⟩
  obtain ⟨entries, hentries, -, hiff⟩ := from_items_denote_tables_iff hschema
  obtain rfl := Except.ok.inj (hentries.symm.trans registered_namesakes)
  obtain ⟨storage, hstorage, hiff⟩ := hiff _ (List.mem_cons_of_mem _ (List.mem_singleton_self _))
    (.single "main" "users" "email") context hcontext
  exact ⟨storage, hstorage, hiff.mpr ⟨by decide, _, rfl, by decide⟩⟩

/-- The dot of a table's name is read as a mark between parts. -/
theorem dotted_table_not_read : ∃ schema,
    introspect (listing [.single "main" "sales.2024" "id"]) = .ok schema ∧
    ∀ context : Compile.Context, context.schema = schema →
      ∃ storage, context.storage "sales.2024" = .ok storage ∧
        Sql.table storage = "\"memory\".\"main\".\"sales\".\"2024\"" ∧
        Sql.table storage ≠ (Table.single "main" "sales.2024" "id").identifier := by
  have hregistered : registered (listing [.single "main" "sales.2024" "id"]) = .ok
    [("sales.2024", ⟨"memory.main.sales.2024", "sales.2024",
      [("id", ⟨.named "Int", none⟩)], none⟩)] := by
    rw [listing_eq, listed_eq_self (by decide) (by decide)]
    rfl
  refine ⟨_, introspect_eq_ok.mpr ⟨_, hregistered, rfl⟩, fun context hcontext => ?_⟩
  refine ⟨"memory.main.sales.2024", ?_, by decide, ?_⟩
  · rw [Compile.Context.storage_eq_ok, hcontext]
    rfl
  · rw [ne_eq, quoted_eq_identifier_iff]
    decide

end Catalog

end NestedSql
