import NestedSql.Proofs.Catalog.Registration
import NestedSql.Proofs.Documents.Printed
import NestedSql.Proofs.Wire.Canonical
import NestedSql.Server.Routes
import NestedSql.Server.Settings

/-!
# Stored documents

Schemas are served, stored in files and loaded from them, and answers are stored by whoever gets
them. Both are values of the grammar, so they are read back from their canonical documents: a schema
because it is built from texts alone, an answer because its values are free. What is loaded is what
was served, so requests compile to the same plans over it.
-/

namespace NestedSql

/-- No collection and no column is named twice. -/
structure Schema.NamedOnce (schema : Schema) : Prop where
  storage : Entries.Distinct schema.storage
  rowTypes : Entries.Distinct schema.rowTypes
  fields : ∀ entry ∈ schema.rowTypes, Entries.Distinct entry.2.fields

namespace Wire

/-! ## Values that are read back -/

theorem readsBack_struct (type : TypeName) {name : String} {shape : Shape type.Carrier}
    (hdeclared : declaration type = .struct name shape) (values : Values shape.members)
    (h : Values.Sound readsBack shape.members values) : readsBack type (shape.build values) := by
  have hkept := readsBack_kept type
  rw [hdeclared] at hkept
  exact hkept.build values h

theorem readsBack_variant (type : TypeName) {name : String} {variants : List (Variant type.Carrier)}
    (hdeclared : declaration type = .union name variants) {variant : Variant type.Carrier}
    (hvariant : variant ∈ variants) (values : Values variant.shape.members)
    (h : Values.Sound readsBack variant.shape.members values) :
    readsBack type (variant.shape.build values) := by
  have hkept := readsBack_kept type
  rw [hdeclared] at hkept
  exact (hkept variant hvariant).build values h

/-- Field types are read back at any nesting. -/
theorem readsBack_fieldType (type : FieldType) : readsBack .fieldType type := by
  induction type with
  | named name =>
    exact readsBack_variant .fieldType rfl List.mem_cons_self (name, ()) ⟨trivial, trivial⟩
  | nullable underlying ih =>
    exact readsBack_variant .fieldType rfl (List.mem_cons_of_mem _ List.mem_cons_self)
      (underlying, ()) ⟨ih, trivial⟩
  | array element ih =>
    exact readsBack_variant .fieldType rfl
      (List.mem_cons_of_mem _ (List.mem_cons_of_mem _ List.mem_cons_self))
      (element, ()) ⟨ih, trivial⟩

theorem readsBack_rowField (field : RowField) : readsBack .rowField field :=
  readsBack_struct .rowField rfl (field.type, field.description, ())
    ⟨readsBack_fieldType field.type, fun _ _ => ⟨trivial, trivial⟩, trivial⟩

theorem readsBack_rowType {type : RowType} (h : Entries.Distinct type.fields) :
    readsBack .rowType type :=
  readsBack_struct .rowType rfl (type.fields, type.description, ())
    ⟨⟨h, fun entry _ => readsBack_rowField entry.2⟩, fun _ _ => ⟨trivial, trivial⟩, trivial⟩

theorem readsBack_schema {schema : Schema} (h : schema.NamedOnce) : readsBack .schema schema :=
  readsBack_struct .schema rfl (schema.collections, schema.storage, schema.rowTypes, ())
    ⟨fun _ _ => trivial, ⟨h.storage, fun _ _ => trivial⟩,
      ⟨h.rowTypes, fun entry hentry => readsBack_rowType (h.fields entry hentry)⟩, trivial⟩

/-- A row set is read back if no object in its document names a member twice. -/
theorem readsBack_rowSet {rowSet : RowSet} (h : rowSet.json.merged = rowSet.json) :
    readsBack .rowSet rowSet := by
  obtain ⟨rows, aggregates, groups⟩ := rowSet
  have hpart {name : String} {part : Option Json} {document : Json} (hpart : part = some document)
      (hmember : (name, part) ∈ [("rows", rows.map (.ofList .object)),
        ("aggregates", aggregates.map .object), ("groups", groups.map (.ofList Group.json))]) :
      document.merged = document := by
    refine (Json.members_of_merged h).2 (name, document) (List.mem_filterMap.mpr ⟨_, hmember, ?_⟩)
    rw [hpart]
    rfl
  have hrow : ∀ row : Row, (Json.object row).merged = .object row →
      (Kind.map .free).Sound readsBack row := fun row => Json.members_of_merged
  refine readsBack_struct .rowSet rfl (rows, aggregates, groups, ())
    ⟨fun found hfound => ⟨fun row hmem => ?rows, trivial⟩,
      fun found hfound => ⟨?aggregates, trivial⟩,
      fun found hfound => ⟨fun group hmem => ?groups, trivial⟩, trivial⟩
  case rows =>
    obtain rfl : rows = some found := hfound
    have hrows := hpart rfl List.mem_cons_self
    exact hrow row (Json.items_of_merged hrows _ (List.mem_map_of_mem hmem))
  case aggregates =>
    obtain rfl : aggregates = some found := hfound
    exact hrow found (hpart rfl (List.mem_cons_of_mem _ List.mem_cons_self))
  case groups =>
    obtain rfl : groups = some found := hfound
    have hgroups := hpart rfl (List.mem_cons_of_mem _ (List.mem_cons_of_mem _ List.mem_cons_self))
    exact readDocument_group (Json.items_of_merged hgroups _ (List.mem_map_of_mem hmem))

end Wire

/-! ## Texts of schemas -/

section Doubles

open Json (variant present ofList ofEntries doubles itemDoubles memberDoubles)

theorem Json.itemDoubles_eq_nil {items : List Json} (h : ∀ item ∈ items, item.doubles = []) :
    itemDoubles items = [] := by
  induction items with
  | nil => rfl
  | cons item items ih =>
    obtain ⟨hitem, hitems⟩ := List.forall_mem_cons.mp h
    rw [itemDoubles, hitem, ih hitems, List.append_nil]

theorem Json.memberDoubles_eq_nil {members : List (String × Json)}
    (h : ∀ member ∈ members, member.2.doubles = []) : memberDoubles members = [] := by
  induction members with
  | nil => rfl
  | cons member members ih =>
    obtain ⟨hmember, hmembers⟩ := List.forall_mem_cons.mp h
    rw [memberDoubles, hmember, ih hmembers, List.append_nil]

theorem Json.doubles_ofEntries {α : Type} {write : α → Json} {entries : Entries α}
    (h : ∀ value, (write value).doubles = []) : (ofEntries write entries).doubles = [] := by
  refine memberDoubles_eq_nil fun member hmember => ?_
  obtain ⟨entry, -, rfl⟩ := List.mem_map.mp hmember
  exact h entry.2

theorem Json.doubles_present {members : List (String × Option Json)}
    (h : ∀ member ∈ members, ∀ document ∈ member.2, document.doubles = []) :
    (present members).doubles = [] := by
  refine memberDoubles_eq_nil fun member hmember => ?_
  obtain ⟨source, hsource, hwritten⟩ := List.mem_filterMap.mp hmember
  obtain ⟨document, hdocument, rfl⟩ := Option.map_eq_some_iff.mp hwritten
  exact h source hsource document hdocument

theorem FieldType.doubles_json (type : FieldType) : type.json.doubles = [] := by
  induction type with
  | named name => rfl
  | nullable underlying ih | array element ih =>
    refine Json.memberDoubles_eq_nil ?_
    simp [ih, doubles]

theorem doubles_description {description : Option String} :
    ∀ document ∈ description.map Json.string, document.doubles = [] := by
  intro document hdocument
  obtain ⟨text, -, rfl⟩ := Option.map_eq_some_iff.mp hdocument
  rfl

theorem RowType.doubles_json (type : RowType) : type.json.doubles = [] := by
  have hfield : ∀ field : RowField, field.json.doubles = [] := fun field =>
    Json.doubles_present (by simp [field.type.doubles_json, doubles_description])
  have hfields : (ofEntries RowField.json type.fields).doubles = [] := Json.doubles_ofEntries hfield
  exact Json.doubles_present (by simp [hfields, doubles_description])

/-- A schema holds texts only. -/
theorem Schema.doubles_json (schema : Schema) : schema.json.doubles = [] := by
  have hcollections : (ofList .string schema.collections).doubles = [] := by
    refine Json.itemDoubles_eq_nil fun item hitem => ?_
    obtain ⟨name, -, rfl⟩ := List.mem_map.mp hitem
    rfl
  have hstorage : (ofEntries .string schema.storage).doubles = [] :=
    Json.doubles_ofEntries fun _ => rfl
  have hrowTypes : (ofEntries RowType.json schema.rowTypes).doubles = [] :=
    Json.doubles_ofEntries RowType.doubles_json
  refine Json.memberDoubles_eq_nil ?_
  simp [hcollections, hstorage, hrowTypes]

end Doubles

namespace Wire

/-- A value with room for its nesting is read from its text. -/
theorem fromText_json {kind : Kind} {value : kind.Value}
    (h : fromValue kind (kind.json value).written = .ok value)
    (hlegible : ∀ x ∈ (kind.json value).doubles, x.Legible)
    (hdepth : (kind.json value).written.depth ≤ Json.nestingLimit) :
    fromText kind (kind.json value).text = .ok value := by
  have hread : readDocument (kind.json value).written kind (.text Json.nestingLimit) = .ok value :=
    readDocument_of_outer _ Route.outer_value (Route.isSound_written hdepth) h
  rw [fromText, Json.parse_text hlegible]
  dsimp only
  rw [hread]
  rfl

end Wire

theorem Server.loadSchema_json {schema : Schema} (h : schema.NamedOnce)
    (hdepth : schema.json.written.depth ≤ Json.nestingLimit) :
    loadSchema (.text schema.json.text) = .ok schema := by
  have hlegible : ∀ x ∈ schema.json.doubles, x.Legible := by
    rw [schema.doubles_json]
    exact List.forall_mem_nil _
  have htext : Wire.fromText (.named .schema) schema.json.text = .ok schema :=
    Wire.fromText_json (Wire.readsBack_schema h) hlegible hdepth
  rw [loadSchema, Compile.bind_eq_ok]
  refine ⟨schema.json.text, rfl, ?_⟩
  rw [htext]
  rfl

/-! ## Schemas of catalogs -/

namespace Catalog

theorem distinct_ofLines? {lines : List (ColumnRow × RowField)} {stored : StoredTable}
    (h : StoredTable.ofLines? lines = some stored) : Entries.Distinct stored.type.fields := by
  cases lines with
  | nil => cases h
  | cons line lines =>
    obtain rfl := Option.some.inj h
    exact Entries.distinct_ofPairs _

theorem namedOnce_introspect {rows : List ColumnRow} {schema : Schema}
    (h : introspect rows = .ok schema) : schema.NamedOnce := by
  obtain ⟨entries, hentries, rfl⟩ := introspect_eq_ok.mp h
  obtain ⟨lines, -, rfl⟩ := registered_eq_ok.mp hentries
  refine ⟨?storage, ?rowTypes, fun entry hentry => ?fields⟩
  case storage =>
    rw [storage_registered]
    exact Entries.distinct_ofPairs _
  case rowTypes =>
    rw [rowTypes_registered]
    exact Entries.distinct_ofPairs _
  case fields =>
    rw [rowTypes_registered] at hentry
    obtain ⟨⟨name, stored⟩, hstored, rfl⟩ := List.mem_map.mp (Entries.mem_ofPairs hentry)
    have htable : stored ∈ storedTables lines := by
      have hmem := List.mem_map_of_mem (f := Prod.snd) hstored
      rwa [map_snd_registrations] at hmem
    obtain ⟨run, -, hrun⟩ := List.mem_filterMap.mp htable
    exact distinct_ofLines? hrun

end Catalog

/-! ## Documents that are served and stored -/

/-- Every route that can take the canonical document of the value in whole reads it as the value. -/
def Wire.LoadsBack (type : TypeName) (value : type.Carrier) : Prop :=
  ∀ route : Route, route.isSound (type.json value).written = true →
    readDocument (type.json value).written (.named type) route = .ok value

theorem Wire.loadsBack {type : TypeName} {value : type.Carrier} (h : readsBack type value) :
    LoadsBack type value :=
  fun _ hroute => readDocument_of_outer _ Route.outer_value hroute h

/-- Schemas and row sets are read back from their canonical documents by every route with room for
them, and from their texts within the nesting limit. What is served as the schema is such a text,
so a schema that was introspected, served and loaded compiles all requests to the same plans. -/
theorem stored_documents_load_back :
    (∀ schema : Schema, schema.NamedOnce → Wire.LoadsBack .schema schema ∧
      (schema.json.written.depth ≤ Json.nestingLimit →
        ∀ service : Service, service.schema = schema → ∀ call : Server.Call,
          call.method = "GET" → Server.Resource.ofPath? call.path = some .schema →
            ∃ body, Server.respond service call = ⟨200, none, some body⟩ ∧
              Server.loadSchema (.text body) = .ok schema)) ∧
    (∀ rowSet : RowSet, rowSet.json.merged = rowSet.json → Wire.LoadsBack .rowSet rowSet ∧
      (rowSet.json.written.depth ≤ Json.nestingLimit → (∀ x ∈ rowSet.json.doubles, x.Legible) →
        Wire.fromText (.named .rowSet) rowSet.json.text = .ok rowSet)) ∧
    ∀ rows schema, Catalog.introspect rows = .ok schema →
      ∃ loaded, Wire.fromValue (.named .schema) schema.json.written = .ok loaded ∧
        (schema.json.written.depth ≤ Json.nestingLimit →
          Server.loadSchema (.text schema.json.text) = .ok loaded) ∧
        ∀ request : Request, request.plans loaded = request.plans schema := by
  refine ⟨fun schema hschema => ⟨Wire.loadsBack (Wire.readsBack_schema hschema), ?served⟩,
    fun rowSet hrowSet => ⟨Wire.loadsBack (Wire.readsBack_rowSet hrowSet), ?text⟩,
    fun rows schema hschema => ?introspected⟩
  case served =>
    rintro hdepth service rfl call hmethod hpath
    refine ⟨service.schema.json.text, ?_, Server.loadSchema_json hschema hdepth⟩
    rw [Server.respond, hpath]
    exact if_pos hmethod
  case text =>
    intro hdepth hlegible
    have hread : Wire.fromValue (.named .rowSet) rowSet.json.written = .ok rowSet :=
      Wire.readsBack_rowSet hrowSet
    exact Wire.fromText_json hread hlegible hdepth
  case introspected =>
    have hnamed := Catalog.namedOnce_introspect hschema
    exact ⟨schema, Wire.readsBack_schema hnamed, Server.loadSchema_json hnamed, fun _ => rfl⟩

/-- The schema of one table, served and loaded, and an answer without rows. -/
theorem users_schema_loads_back :
    let rows : List Catalog.ColumnRow :=
      [⟨"memory", "main", "users", "marks", "INTEGER[]", true, some "best first", none⟩]
    let schema : Schema := ⟨["users"], [("users", "memory.main.users")],
      [("users", ⟨[("marks", ⟨.nullable (.array (.named "Int")), some "best first"⟩)], none⟩)]⟩
    let rowSet : RowSet := ⟨some [], none, some [⟨[.null], [("count", .string "1")]⟩]⟩
    Catalog.introspect rows = .ok schema ∧
      (∃ body, Server.respond ⟨schema, fun _ => .null, .ofSize 1⟩ ⟨"GET", "/schema", none, ""⟩ =
          ⟨200, none, some body⟩ ∧ Server.loadSchema (.text body) = .ok schema) ∧
      Wire.fromText (.named .rowSet) rowSet.json.text = .ok rowSet ∧
      ∃ loaded, Wire.fromValue (.named .schema) schema.json.written = .ok loaded ∧
        ∀ request : Request, request.plans loaded = request.plans schema := by
  intro rows schema rowSet
  have hintrospected : Catalog.introspect rows = .ok schema := rfl
  have hnamed : schema.NamedOnce := Catalog.namedOnce_introspect hintrospected
  obtain ⟨loaded, hloaded, -, hplans⟩ := stored_documents_load_back.2.2 rows schema hintrospected
  have hserved := (stored_documents_load_back.1 schema hnamed).2 (by decide)
  have hlegible : ∀ x ∈ rowSet.json.doubles, x.Legible := List.forall_mem_nil _
  have hanswer := (stored_documents_load_back.2.1 rowSet rfl).2 (by decide) hlegible
  exact ⟨hintrospected, hserved _ rfl _ rfl rfl, hanswer, loaded, hloaded, hplans⟩

end NestedSql
