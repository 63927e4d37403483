import NestedSql.Proofs.Catalog.Registration
import NestedSql.Proofs.Faults.Requests

/-!
# Schemas of catalogs in use

A listing has a schema unless the type of some column has no field type, and then the first such
line is the answer. In the schema of a listing the three lists name the same collections in one
order, and what a collection shows, its storage text and its columns alike, comes from one run of
lines. Scalars of such a schema all have rules, so a request over it fails neither with an unknown
scalar nor with a column that the schema has. Tables that a schema does not show are not spoken of.
-/

namespace NestedSql

namespace Entries

variable {α : Type}

/-- Names stand where they are put first. -/
theorem names_ofPairs (pairs : List (String × α)) :
    names (ofPairs pairs) = (pairs.map Prod.fst).eraseDups := by
  induction pairs using List.reverseRecOn with
  | nil => rfl
  | append_singleton pairs pair ih =>
    have hput : ofPairs (pairs ++ [pair]) = put pair.1 pair.2 (ofPairs pairs) := by
      rw [ofPairs, ofPairs, List.foldl_append, List.foldl_cons, List.foldl_nil]
    rw [hput, names_put, ih, List.map_append, List.map_singleton, List.eraseDups_append]
    by_cases h : pair.1 ∈ pairs.map Prod.fst
    · rw [if_pos (List.mem_eraseDups.mpr h)]
      simp [List.removeAll, h]
    · rw [if_neg (mt List.mem_eraseDups.mp h)]
      have hnew : [pair.1].removeAll (pairs.map Prod.fst) = [pair.1] := by
        simpa [List.removeAll] using h
      rw [hnew]
      rfl

theorem get?_eq_find? (name : String) (entries : Entries α) :
    get? name entries = (entries.find? fun entry => entry.1 = name).map Prod.snd := by
  induction entries with
  | nil => rfl
  | cons entry entries ih =>
    rw [get?, List.find?_cons, ih]
    by_cases h : entry.1 = name <;> simp [h]

/-- A pair stands for its name if it is the last with this name. -/
theorem get?_ofPairs_last (name : String) (pairs : List (String × α)) :
    get? name (ofPairs pairs) =
      (pairs.filter fun pair => pair.1 = name).getLast?.map Prod.snd := by
  rw [get?_ofPairs, get?_eq_find?, List.getLast?_filter]

end Entries

namespace Catalog

open Compile (bind_eq_ok classify mapM_eq_error pure_eq_ok)

/-! ## Types of columns -/

/-- A field type is that of a scalar in any number of lists. -/
theorem fieldType?_spec {name : String} {type : FieldType} (h : fieldType? name = some type) :
    (∃ scalar : ScalarType, type.underlyingName = scalar.name) ∧
      ∀ inner, type ≠ .nullable inner := by
  rw [fieldType?] at h
  generalize name.toList.reverse = reversed at h
  induction reversed using ofReversed?.induct generalizing type with
  | case1 element ih =>
    rw [ofReversed?] at h
    obtain ⟨inner, hinner, rfl⟩ := Option.map_eq_some_iff.mp h
    exact ⟨(ih hinner).1, fun _ => nofun⟩
  | case2 base hbase =>
    rw [ofReversed?] at h
    · obtain ⟨scalar, -, rfl⟩ := Option.map_eq_some_iff.mp h
      exact ⟨⟨scalar, rfl⟩, fun _ => nofun⟩
    · exact hbase

/-- What a line declares: the type that its text stands for, nullable if the line says so, which
can be projected, compared and sorted. -/
structure Declares (row : ColumnRow) (field : RowField) : Prop where
  type : ∃ inner, fieldType? row.type = some inner ∧
    field.type = if row.nullable then .nullable inner else inner
  nullable : (∃ inner, field.type = .nullable inner) ↔ row.nullable = true
  usable : ∀ usage, ∃ strategy, classify field.type usage = .ok strategy

theorem declares_of_field {row : ColumnRow} {field : RowField} (h : row.field = .ok field) :
    Declares row field := by
  rw [ColumnRow.field] at h
  cases htype : fieldType? row.type with
  | none =>
    rw [htype] at h
    cases h
  | some inner =>
    rw [htype] at h
    obtain rfl := Except.ok.inj h
    obtain ⟨⟨scalar, hscalar⟩, hplain⟩ := fieldType?_spec htype
    refine ⟨⟨inner, htype, rfl⟩, ?nullable, fun usage => ?usable⟩
    case nullable =>
      cases row.nullable with
      | true => exact ⟨fun _ => rfl, fun _ => ⟨inner, rfl⟩⟩
      | false => exact ⟨fun ⟨other, hother⟩ => absurd hother (hplain other), nofun⟩
    case usable =>
      have hname : (if row.nullable then FieldType.nullable inner else inner).underlyingName =
          scalar.name := by
        cases row.nullable <;> exact hscalar
      refine ⟨_, Compile.classify_eq_ok.mpr ⟨scalar, ?_, rfl⟩⟩
      dsimp only
      rw [hname, ScalarType.ofName?_name]

/-! ## Lines without a field type -/

theorem field_eq_error {row : ColumnRow} {error : UnsupportedType} :
    row.field = .error error ↔
      fieldType? row.type = none ∧ error = ⟨row.storage, row.column, row.type⟩ := by
  rw [ColumnRow.field]
  cases fieldType? row.type with
  | none => exact ⟨fun h => ⟨rfl, (Except.error.inj h).symm⟩, fun h => congrArg _ h.2.symm⟩
  | some type => exact ⟨nofun, nofun⟩

theorem field_eq_ok {row : ColumnRow} :
    (∃ field, row.field = .ok field) ↔ (fieldType? row.type).isSome = true := by
  rw [ColumnRow.field]
  cases fieldType? row.type with
  | none => exact ⟨nofun, nofun⟩
  | some type => exact ⟨fun _ => rfl, fun _ => ⟨_, rfl⟩⟩

/-- A listing has no schema exactly if its declarations cannot all be read. -/
theorem introspect_eq_error_declared {rows : List ColumnRow} {error : UnsupportedType} :
    introspect rows = .error error ↔ declared rows = .error error := by
  rw [introspect, ← declared]
  cases declared rows with
  | error fault =>
    exact ⟨fun h => congrArg _ (Except.error.inj h), fun h => congrArg _ (Except.error.inj h)⟩
  | ok lines =>
    constructor
    · intro h
      cases h
    · intro h
      cases h

theorem declare_eq_ok {row : ColumnRow} :
    (∃ line, (do return (row, ← row.field) : Except UnsupportedType _) = .ok line) ↔
      (fieldType? row.type).isSome = true := by
  rw [← field_eq_ok]
  simp only [bind_eq_ok, pure_eq_ok]
  exact ⟨fun ⟨_, field, h, _⟩ => ⟨field, h⟩, fun ⟨field, h⟩ => ⟨_, field, h, rfl⟩⟩

theorem declare_eq_error {row : ColumnRow} {error : UnsupportedType} :
    (do return (row, ← row.field) : Except UnsupportedType _) = .error error ↔
      row.field = .error error := by
  cases row.field with
  | error fault =>
    exact ⟨fun h => congrArg _ (Except.error.inj h), fun h => congrArg _ (Except.error.inj h)⟩
  | ok field => exact ⟨nofun, nofun⟩

/-- The first line without a field type is the answer. -/
theorem introspect_eq_error {rows : List ColumnRow} {error : UnsupportedType} :
    introspect rows = .error error ↔ ∃ before row after, rows = before ++ row :: after ∧
      (∀ earlier ∈ before, (fieldType? earlier.type).isSome = true) ∧
      fieldType? row.type = none ∧ error = ⟨row.storage, row.column, row.type⟩ := by
  rw [introspect_eq_error_declared, declared, mapM_eq_error]
  simp only [declare_eq_ok, declare_eq_error, field_eq_error]

/-! ## Runs of a listing -/

/-- The lines with their declarations have the runs of the lines. -/
theorem runs_declared {rows : List ColumnRow} {lines : List (ColumnRow × RowField)}
    (h : declared rows = .ok lines) :
    runs ColumnRow.storage rows =
      (runs (fun line => line.1.storage) lines).map (List.map Prod.fst) := by
  have hruns : runs ColumnRow.storage (lines.flatMap fun line => [line.1]) =
      (runs (fun line => line.1.storage) lines).map fun run => run.flatMap fun line => [line.1] :=
    runs_flatMap (fun _ _ => List.cons_ne_nil _ _)
      fun _ _ _ hitem => congrArg _ (List.mem_singleton.mp hitem)
  simp only [← List.map_eq_flatMap, (declared_eq_ok.mp h).1] at hruns
  exact hruns

/-- The columns of a row type are read from a run of lines: every column stands where it is named
first and is declared by the line that names it last. -/
structure ReadFrom (run : List ColumnRow) (type : RowType) : Prop where
  columns : Entries.names type.fields = (run.map ColumnRow.column).eraseDups
  declared : ∀ column field, (column, field) ∈ type.fields →
    ∃ row, (run.filter fun row => row.column = column).getLast? = some row ∧ Declares row field

theorem readFrom_ofLines? {lines : List (ColumnRow × RowField)} {stored : StoredTable}
    (h : StoredTable.ofLines? lines = some stored)
    (hfields : ∀ line ∈ lines, line.1.field = .ok line.2) :
    ReadFrom (lines.map Prod.fst) stored.type := by
  obtain ⟨columns, hcolumns, hstored⟩ : ∃ columns : List (String × RowField),
      lines.map (fun line => (line.1.column, line.2)) = columns ∧
        stored.type.fields = Entries.ofPairs columns := by
    cases lines with
    | nil => cases h
    | cons line lines =>
      obtain rfl := Option.some.inj h
      exact ⟨_, rfl, rfl⟩
  refine ⟨?columns, fun column field hmem => ?declared⟩
  case columns =>
    rw [hstored, Entries.names_ofPairs, ← hcolumns, List.map_map, List.map_map]
    rfl
  case declared =>
    rw [hstored] at hmem
    have hlast := Entries.get?_of_mem (Entries.distinct_ofPairs columns) hmem
    rw [Entries.get?_ofPairs_last, ← hcolumns, List.filter_map, List.getLast?_map, Option.map_map,
      Option.map_eq_some_iff] at hlast
    obtain ⟨line, hline, rfl⟩ := hlast
    refine ⟨line.1, ?_, declares_of_field (hfields line ?_)⟩
    · rw [List.filter_map, List.getLast?_map]
      exact congrArg (Option.map Prod.fst) hline
    · exact List.mem_of_mem_filter (List.mem_of_getLast? hline)

/-! ## The schema of a listing -/

/-- The storage text and the columns of a collection come from one run of the listing. -/
def ShownFrom (rows : List ColumnRow) (schema : Schema) (collection : String) : Prop :=
  ∃ run ∈ runs ColumnRow.storage rows, ∃ storage type,
    schema.storage? collection = some storage ∧ schema.rowType? collection = some type ∧
      (∀ row ∈ run, row.storage = storage) ∧ ReadFrom run type

/-- What the schema of a listing gives to queries: three lists of the same names, collections that
are not mixed from several tables, and requests that fail neither for a scalar nor for a collection
or a column that the schema has. -/
structure Usable (rows : List ColumnRow) (schema : Schema) : Prop where
  distinct : schema.collections.Nodup
  stored : Entries.names schema.storage = schema.collections
  typed : Entries.names schema.rowTypes = schema.collections
  shown : ∀ collection ∈ schema.collections, ShownFrom rows schema collection
  scalars : ∀ (request : Request) bindings name,
    request.compile schema bindings ≠ .error (.unknownScalar name)
  collectionsFound : ∀ (request : Request) bindings, ∀ collection ∈ schema.collections,
    request.compile schema bindings ≠ .error (.storageNotFound collection) ∧
      request.compile schema bindings ≠ .error (.collectionNotFound collection)
  columnsFound : ∀ (request : Request) bindings collection type column,
    schema.rowType? collection = some type → column ∈ Entries.names type.fields →
      request.compile schema bindings ≠ .error (.columnNotFound column collection)

section Registered

variable {rows : List ColumnRow} {entries : List (String × StoredTable)}

/-- The three lists have the names of the registrations, each where it is registered first. -/
theorem names_registered (entries : List (String × StoredTable)) :
    Entries.names (entries.foldl register .empty).storage =
        (entries.map Prod.fst).eraseDups ∧
      Entries.names (entries.foldl register .empty).rowTypes =
        (entries.map Prod.fst).eraseDups := by
  rw [storage_registered, rowTypes_registered, Entries.names_ofPairs, Entries.names_ofPairs,
    List.map_map, List.map_map]
  exact ⟨rfl, rfl⟩

/-- A registered table is read from a run of the listing. -/
theorem readFrom_of_registered (h : registered rows = .ok entries) {name : String}
    {stored : StoredTable} (hmem : (name, stored) ∈ entries) :
    ∃ run ∈ runs ColumnRow.storage rows, (∀ row ∈ run, row.storage = stored.storage) ∧
      ReadFrom run stored.type := by
  obtain ⟨lines, hlines, rfl⟩ := registered_eq_ok.mp h
  have hstored : stored ∈ storedTables lines := by
    rw [← map_snd_registrations (storedTables lines) .empty]
    exact List.mem_map_of_mem hmem
  rw [storedTables_eq] at hstored
  obtain ⟨run, hrun, hstored⟩ := List.mem_filterMap.mp hstored
  refine ⟨run.map Prod.fst, ?run, ?storage, readFrom_ofLines? hstored fun line hline => ?field⟩
  case run =>
    rw [runs_declared hlines]
    exact List.mem_map_of_mem hrun
  case storage =>
    obtain ⟨first, rest, rfl, hkey⟩ := run_spec hrun
    obtain rfl := Option.some.inj hstored
    exact List.forall_mem_map.mpr hkey
  case field =>
    refine (declared_eq_ok.mp hlines).2 line ?_
    rw [← flatten_runs (fun line => line.1.storage) lines]
    exact List.mem_flatten.mpr ⟨run, hrun, hline⟩

/-- The schema shows under every name a storage text and columns of one run. -/
theorem shownFrom_of_registered (h : registered rows = .ok entries) {collection : String}
    (hmem : collection ∈ (entries.foldl register .empty).collections) :
    ShownFrom rows (entries.foldl register .empty) collection := by
  rw [collections_foldl_register entries .empty rfl, (names_registered entries).2,
    List.mem_eraseDups] at hmem
  obtain ⟨⟨name, stored⟩, hentry, rfl⟩ := List.mem_map.mp hmem
  obtain ⟨last, hlast⟩ := lastUnder?_isSome hentry
  have hregistered : (name, last) ∈ entries := List.mem_reverse.mp (Entries.mem_of_get? hlast)
  obtain ⟨run, hrun, hstorage, hread⟩ := readFrom_of_registered h hregistered
  refine ⟨run, hrun, last.storage, last.type, ?_, ?_, hstorage, hread⟩
  · rw [storage?_registered, hlast]
    rfl
  · rw [rowType?_registered, hlast]
    rfl

end Registered

section Requests

variable {rows : List ColumnRow} {schema : Schema} {context : Compile.Context}

/-- A type that the schema gives to a column is known by all rules. -/
theorem classify_of_columnType?
    (hshown : ∀ collection, (schema.rowType? collection).isSome = true →
      ShownFrom rows schema collection)
    (hcontext : context.schema = schema) {collection column : String} {type : FieldType}
    (h : context.columnType? collection column = some type) (usage : Compile.Usage) :
    ∃ strategy, classify type usage = .ok strategy := by
  obtain ⟨rowType, hrow, field, hfield, rfl⟩ := Compile.Context.columnType?_eq_some.mp h
  rw [hcontext] at hrow
  obtain ⟨run, -, storage, type, -, htype, -, hread⟩ := hshown collection (hrow ▸ rfl)
  obtain rfl := Option.some.inj (hrow.symm.trans htype)
  obtain ⟨row, -, hdeclares⟩ := hread.declared column field (Entries.mem_of_get? hfield)
  exact hdeclares.usable usage

end Requests

/-- The registrations of a listing make a schema that can be used. -/
theorem usable_of_registered {rows : List ColumnRow} {entries : List (String × StoredTable)}
    (h : registered rows = .ok entries) : Usable rows (entries.foldl register .empty) := by
  have hcollections := collections_foldl_register entries .empty rfl
  obtain ⟨hstored, htyped⟩ := names_registered entries
  have hshown : ∀ collection ∈ (entries.foldl register .empty).collections,
      ShownFrom rows (entries.foldl register .empty) collection :=
    fun _ hmem => shownFrom_of_registered h hmem
  have hdistinct : (entries.foldl register .empty).collections.Nodup := by
    rw [hcollections, rowTypes_registered]
    exact Entries.distinct_ofPairs _
  generalize entries.foldl register .empty = schema
    at hcollections hstored htyped hshown hdistinct
  have htypes : ∀ collection, (schema.rowType? collection).isSome = true →
      ShownFrom rows schema collection := by
    intro collection hsome
    obtain ⟨type, htype⟩ := Option.isSome_iff_exists.mp hsome
    refine hshown collection ?_
    rw [hcollections]
    exact List.mem_map_of_mem (Entries.mem_of_get? htype)
  exact {
    distinct := hdistinct
    stored := by rw [hcollections, hstored, htyped]
    typed := hcollections.symm
    shown := hshown
    scalars := by
      intro request bindings name hfault
      obtain ⟨hname, collection, column, type, htype, hunderlying⟩ :=
        Compile.compile_truthful schema request bindings _ hfault
      obtain ⟨strategy, hstrategy⟩ := classify_of_columnType? htypes rfl htype .projection
      obtain ⟨scalar, hscalar, -⟩ := Compile.classify_eq_ok.mp hstrategy
      rw [hunderlying, hname] at hscalar
      cases hscalar
    collectionsFound := by
      intro request bindings collection hmem
      obtain ⟨run, -, storage, type, hstorage, htype, -⟩ := hshown collection hmem
      refine ⟨fun hfault => ?_, fun hfault => ?_⟩
      · have hnone : schema.storage? collection = none :=
          Compile.compile_truthful schema request bindings _ hfault
        rw [hstorage] at hnone
        cases hnone
      · have hnone : schema.rowType? collection = none :=
          Compile.compile_truthful schema request bindings _ hfault
        rw [htype] at hnone
        cases hnone
    columnsFound := by
      intro request bindings collection type column htype hcolumn hfault
      have hnone : Compile.Context.columnType? ⟨schema, request.relationships, bindings⟩
          collection column = none := Compile.compile_truthful schema request bindings _ hfault
      cases hfield : type.field? column with
      | none => exact Entries.get?_eq_none.mp hfield hcolumn
      | some field =>
        rw [Compile.Context.columnType?_eq_some.mpr ⟨type, htype, field, hfield, rfl⟩] at hnone
        cases hnone }

/-- A listing in which every type is known has a schema that can be used. Otherwise the answer names
the first line whose type is not known. -/
theorem introspected_schema_usable (rows : List ColumnRow) :
    (∃ schema, introspect rows = .ok schema ∧
      (∀ row ∈ rows, (fieldType? row.type).isSome = true) ∧ Usable rows schema) ∨
    (∃ before row after, rows = before ++ row :: after ∧
      (∀ earlier ∈ before, (fieldType? earlier.type).isSome = true) ∧
      fieldType? row.type = none ∧
      introspect rows = .error ⟨row.storage, row.column, row.type⟩) := by
  cases hresult : introspect rows with
  | error fault =>
    obtain ⟨before, row, after, hrows, hbefore, htype, rfl⟩ := introspect_eq_error.mp hresult
    exact .inr ⟨before, row, after, hrows, hbefore, htype, rfl⟩
  | ok schema =>
    obtain ⟨entries, hentries, rfl⟩ := introspect_eq_ok.mp hresult
    obtain ⟨lines, hlines, -⟩ := registered_eq_ok.mp hentries
    obtain ⟨hfst, hfields⟩ := declared_eq_ok.mp hlines
    refine .inl ⟨_, rfl, ?_, usable_of_registered hentries⟩
    rw [← hfst]
    exact List.forall_mem_map.mpr fun line hline => field_eq_ok.mp ⟨_, hfields line hline⟩

end Catalog

end NestedSql
