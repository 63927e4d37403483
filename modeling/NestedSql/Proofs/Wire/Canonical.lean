import NestedSql.Compile.Plan
import NestedSql.Proofs.Documents.Texts
import NestedSql.Proofs.Wire.Routes

/-!
# Canonical documents are read back

The writer follows the grammar too: a structure is written as the object of its members in order
of declaration, a variant behind its tag, a symbol by its name. So one invariant says of all types
that their canonical documents are read back, and every value that is read from any document, in
any form and by any route, has it. The fingerprint of a request is the digest of its canonical
text, so it tells requests apart as long as the digest tells these texts apart.
-/

namespace NestedSql

/-- Two texts have one digest. -/
def Sha256.Collide (first second : String) : Prop := first ≠ second ∧ hex first = hex second

namespace Wire

open Compile (bind_eq_ok pure_eq_ok throw_ne_ok)

/-! ## Writing by the grammar -/

/-- The canonical document of a value of a type. -/
def TypeName.json : (type : TypeName) → type.Carrier → Json
  | .fieldType => FieldType.json
  | .rowField => RowField.json
  | .rowType => RowType.json
  | .schema => Schema.json
  | .request => Request.json
  | .query => Query.json
  | .field => Field.json
  | .relationship => Relationship.json
  | .relationshipType => RelationshipType.json
  | .orderBy => OrderBy.json
  | .orderByElement => OrderByElement.json
  | .orderByTarget => OrderByTarget.json
  | .orderDirection => OrderDirection.json
  | .pathElement => PathElement.json
  | .expression => Expression.json
  | .unaryOperator => UnaryOperator.json
  | .comparisonTarget => ComparisonTarget.json
  | .comparisonValue => ComparisonValue.json
  | .existsSource => ExistsSource.json
  | .aggregate => Aggregate.json
  | .grouping => Grouping.json
  | .dimension => Dimension.json
  | .rowSet => RowSet.json
  | .group => Group.json
  | .rowsDocument => fun document => .object [("rows", .ofList .object document.rows)]

/-- The canonical document of a value of a kind. -/
def Kind.json : (kind : Kind) → kind.Value → Json
  | .string, value => .string value
  | .boolean, value => .bool value
  | .count, value => .count value
  | .free, value => value
  | .named type, value => type.json value
  | .list item, values => .ofList item.json values
  | .map inner, entries => .ofEntries inner.json entries

/-- The document of a member, if it is written at all. -/
def Member.json? : (member : Member) → member.Value → Option Json
  | ⟨_, kind, .optional⟩, value => value.map kind.json
  | ⟨_, kind, .required⟩, value => some (kind.json value)
  | ⟨_, kind, .defaulted _⟩, value => some (kind.json value)

/-- The documents of all members, by name. -/
def Values.json? : (members : List Member) → Values members → List (String × Option Json)
  | [], _ => []
  | member :: members, (value, values) =>
    (member.name, member.json? value) :: Values.json? members values

/-- The members that are written. -/
def Values.json (members : List Member) (values : Values members) : List (String × Json) :=
  (Values.json? members values).filterMap fun member => member.2.map (member.1, ·)

/-- Values are written as their declaration has it. -/
def Declaration.Writes {α : Type} (write : α → Json) : Declaration α → Prop
  | .struct _ shape => ∀ values,
      write (shape.build values) = .object (Values.json shape.members values)
  | .union _ variants => ∀ variant ∈ variants, ∀ values,
      write (variant.shape.build values) =
        .variant variant.tag (Values.json variant.shape.members values)
  | .symbols names => ∀ entry ∈ names, write entry.2 = .string entry.1

/-! ## The writer follows the grammar -/

theorem Kind.json_list_free : (Kind.list .free).json = Json.array :=
  funext fun items => congrArg Json.array (List.map_id items)

theorem Kind.json_map_free : (Kind.map .free).json = Json.object :=
  funext fun entries => congrArg Json.object (List.map_id entries)

theorem Kind.json_list_map_free : (Kind.list (.map .free)).json = Json.ofList .object := by
  funext rows
  rw [Kind.json, Kind.json_map_free]

theorem Kind.json_expressions (parts : List Expression) :
    (Kind.list (.named .expression)).json parts = .array (partsJson parts) := by
  refine congrArg Json.array ?_
  induction parts with
  | nil => rfl
  | cons part parts ih => rw [partsJson, List.map_cons, ih]; rfl

theorem Kind.json_path (path : List PathElement) :
    (Kind.list (.named .pathElement)).json path = .array (pathJson path) := by
  refine congrArg Json.array ?_
  induction path with
  | nil => rfl
  | cons element path ih => rw [pathJson, List.map_cons, ih]; rfl

theorem Kind.json_fields (fields : Option (List (String × Field))) :
    fields.map (Kind.map (.named .field)).json = fieldsJson fields := by
  cases fields with
  | none => rfl
  | some fields =>
    refine congrArg (some ∘ Json.object) ?_
    induction fields with
    | nil => rfl
    | cons entry fields ih => rw [fieldEntriesJson, List.map_cons, ih]; rfl

/-- Every type is written as it is declared. -/
theorem declaration_writes (type : TypeName) : (declaration type).Writes type.json := by
  cases type with
  | rowField | rowType | schema | relationship | orderBy | orderByElement =>
    exact fun _ => rfl
  | relationshipType | orderDirection =>
    simp only [declaration, Declaration.Writes, List.forall_mem_cons]
    exact ⟨rfl, rfl, List.forall_mem_nil _⟩
  | unaryOperator =>
    simp only [declaration, Declaration.Writes, List.forall_mem_cons]
    exact ⟨rfl, List.forall_mem_nil _⟩
  | fieldType | aggregate | comparisonValue =>
    simp only [declaration, Declaration.Writes, List.forall_mem_cons]
    exact ⟨fun _ => rfl, fun _ => rfl, fun _ => rfl, List.forall_mem_nil _⟩
  | field | existsSource =>
    simp only [declaration, Declaration.Writes, List.forall_mem_cons]
    exact ⟨fun _ => rfl, fun _ => rfl, List.forall_mem_nil _⟩
  | comparisonTarget =>
    simp only [declaration, Declaration.Writes, List.forall_mem_cons]
    refine ⟨?_, fun _ => rfl, List.forall_mem_nil _⟩
    rintro ⟨name, path, _⟩
    exact congrArg (fun path => Json.variant "column" [("name", .string name), ("path", path)])
      (Kind.json_path path).symm
  | dimension =>
    simp only [declaration, Declaration.Writes, List.forall_mem_cons]
    refine ⟨?_, List.forall_mem_nil _⟩
    rintro ⟨name, path, _⟩
    exact congrArg (fun path => Json.variant "column" [("column_name", .string name),
      ("path", path)]) (Kind.json_path path).symm
  | orderByTarget =>
    simp only [declaration, Declaration.Writes, List.forall_mem_cons]
    refine ⟨?column, ?single, ?star, List.forall_mem_nil _⟩
    case column =>
      rintro ⟨name, path, _⟩
      exact congrArg (fun path => Json.variant "column" [("name", .string name), ("path", path)])
        (Kind.json_path path).symm
    case single =>
      rintro ⟨column, function, path, _⟩
      exact congrArg (fun path => Json.variant "single_column_aggregate"
        [("column", .string column), ("function", .string function), ("path", path)])
        (Kind.json_path path).symm
    case star =>
      rintro ⟨path, _⟩
      exact congrArg (fun path => Json.variant "star_count_aggregate" [("path", path)])
        (Kind.json_path path).symm
  | expression =>
    simp only [declaration, Declaration.Writes, List.forall_mem_cons]
    refine ⟨?and, ?or, fun _ => rfl, fun _ => rfl, fun _ => rfl, ?within, List.forall_mem_nil _⟩
    case and =>
      rintro ⟨parts, _⟩
      exact congrArg (fun parts => Json.variant "and" [("expressions", parts)])
        (Kind.json_expressions parts).symm
    case or =>
      rintro ⟨parts, _⟩
      exact congrArg (fun parts => Json.variant "or" [("expressions", parts)])
        (Kind.json_expressions parts).symm
    case within =>
      rintro ⟨source, predicate, _⟩
      cases predicate <;> rfl
  | pathElement =>
    rintro ⟨relationship, predicate, _⟩
    cases predicate <;> rfl
  | request =>
    rintro ⟨collection, query, relationships, bindings, _⟩
    show Request.json _ = .present [_, _, _,
      ("variables", bindings.map (Kind.list (.map .free)).json)]
    rw [Kind.json_list_map_free]
    rfl
  | query =>
    rintro ⟨fields, aggregates, limit, offset, orderBy, predicate, groups, _⟩
    show Query.json _ = .present [("fields", fields.map (Kind.map (.named .field)).json),
      _, _, _, _, _, _]
    rw [Kind.json_fields]
    rfl
  | grouping =>
    rintro ⟨dimensions, aggregates, predicate, orderBy, limit, offset, _⟩
    show Grouping.json _ = .present [_, _, ("predicate", predicate.map id),
      ("order_by", orderBy.map id), _, _]
    rw [Option.map_id_fun, id, id]
    rfl
  | rowSet =>
    rintro ⟨rows, aggregates, groups, _⟩
    show RowSet.json _ = .present [("rows", rows.map (Kind.list (.map .free)).json),
      ("aggregates", aggregates.map (Kind.map .free).json), _]
    rw [Kind.json_list_map_free, Kind.json_map_free]
    rfl
  | group =>
    rintro ⟨dimensions, aggregates, _⟩
    show Group.json _ = .object [("dimensions", Kind.json _ _), ("aggregates", Kind.json _ _)]
    rw [Kind.json_list_free, Kind.json_map_free]
    rfl
  | rowsDocument =>
    rintro ⟨rows, _⟩
    show _ = Json.object [("rows", Kind.json _ _)]
    rw [Kind.json_list_map_free]
    rfl

/-! ## Reading back -/

/-- The canonical document of the value is read as it. -/
def readsBack : Invariant := fun type value =>
  fromValue (.named type) (type.json value).written = .ok value

theorem readDocument_count (value : UInt32) :
    fromValue .count (Json.count value).written = .ok value := by
  have hrange : (0 : Int) ≤ value.toNat ∧ (value.toNat : Int) < UInt32.size :=
    ⟨Int.natCast_nonneg _, Int.ofNat_lt.mpr value.toNat_lt⟩
  have hread : fromValue .count (Json.count value).written =
      readScalar (.number (.ofUInt32 value)) .count .value := rfl
  rw [hread, Number.ofUInt32]
  unfold readScalar
  refine (if_pos hrange).trans ?_
  rw [Int.toNat_natCast, UInt32.ofNat_toNat]
  rfl

/-- The canonical document of a sound value is read as it. -/
theorem Kind.fromValue_json : {kind : Kind} → {value : kind.Value} → kind.Sound readsBack value →
    fromValue kind (kind.json value).written = .ok value
  | .string, _, _ | .boolean, _, _ => rfl
  | .count, value, _ => readDocument_count value
  | .free, value, h => readDocument_free value h
  | .named _, _, h => h
  | .list item, values, h => by
    refine (readDocument_list_eq_ok Route.unbounded_value).mpr ?_
    rw [Json.writtenItems_eq, List.map_map, List.forall₂_map_left_iff]
    exact List.forall₂_same.mpr fun value hvalue => fromValue_json (h value hvalue)
  | .map inner, entries, ⟨hdistinct, h⟩ => by
    refine (readDocument_map_eq_ok Route.unbounded_value).mpr
      ⟨entries, readEntries_eq_ok.mpr ?_, Entries.ofPairs_of_distinct hdistinct⟩
    rw [Json.writtenMembers_eq, List.map_map, List.forall₂_map_left_iff]
    exact List.forall₂_same.mpr fun entry hentry => ⟨rfl, fromValue_json (h entry hentry)⟩

/-- Null is read as a free value only. -/
theorem fromValue_null {kind : Kind} {value : kind.Value} (h : fromValue kind .null = .ok value) :
    kind = .free := by
  have hread : readScalar .null kind .value = .ok value := h
  cases kind with
  | free => rfl
  | named type =>
    unfold readScalar at hread
    dsimp only at hread
    cases hdeclared : declaration type with
    | struct | union | symbols =>
      rw [hdeclared] at hread
      exact absurd hread wrongType_ne_ok
  | _ =>
    unfold readScalar at hread
    exact absurd hread wrongType_ne_ok

/-- What is written for a stated value is not null. -/
theorem Kind.json_ne_null {kind : Kind} {value : kind.Value} (h : kind.Sound readsBack value)
    (hstated : kind.Stated value) : (kind.json value).written ≠ .null := by
  intro hnull
  have hread := Kind.fromValue_json h
  rw [hnull] at hread
  obtain rfl := fromValue_null hread
  cases value with
  | null => exact hstated rfl
  | _ => cases hnull

/-- A sound member is given by its own document. -/
theorem Member.given_json {member : Member} {value : member.Value} {route : Route}
    (hroute : route.Unbounded) (h : member.Sound readsBack value) :
    member.Given route ((member.json? value).toList.map Json.written) value := by
  have hread {kind : Kind} {value : kind.Value} (h : kind.Sound readsBack value) :
      readDocument (kind.json value).written kind route = .ok value :=
    readDocument_of_outer _ Route.outer_value (hroute.isSound _) (Kind.fromValue_json h)
  obtain ⟨name, kind, presence⟩ := member
  cases presence with
  | required | defaulted default => exact hread h
  | optional =>
    cases value with
    | none => rfl
    | some value =>
      obtain ⟨hsound, hstated⟩ := h value rfl
      have hnull := Kind.json_ne_null hsound hstated
      have hpresent : ∀ {document : Written}, document ≠ .null →
          Member.read ⟨name, kind, .optional⟩ document
            (fun kind => readDocument document kind route) =
              some <$> readDocument document kind route := by
        intro document hdocument
        cases document with
        | null => exact absurd rfl hdocument
        | _ => rfl
      refine (hpresent hnull).trans ?_
      rw [hread hsound]
      rfl

/-! ## Members of canonical documents -/

theorem Values.json_cons (member : Member) (members : List Member) (value : member.Value)
    (values : Values members) :
    Values.json (member :: members) (value, values) =
      (member.json? value).toList.map (member.name, ·) ++ Values.json members values := by
  rw [Values.json, Values.json?, Values.json]
  cases hvalue : member.json? value with
  | none => exact List.filterMap_cons_none rfl
  | some document => exact List.filterMap_cons_some rfl

theorem Values.names_json : (members : List Member) → (values : Values members) →
    ∀ name ∈ Entries.names (Values.json members values), name ∈ members.map Member.name
  | [], _ => nofun
  | member :: members, (value, values) => by
    intro name h
    rw [Values.json_cons, Entries.names, List.map_append, List.map_map, List.mem_append] at h
    rcases h with h | h
    · obtain ⟨_, -, rfl⟩ := List.mem_map.mp h
      exact List.mem_cons_self
    · exact List.mem_cons_of_mem _ (Values.names_json members values name h)

/-- Sound members are given by the members that are written for them. -/
theorem Values.given_json {route : Route} (hroute : route.Unbounded) :
    {members : List Member} → {values : Values members} → (members.map Member.name).Nodup →
      Values.Sound readsBack members values →
        Values.Given route (Json.writtenMembers (Values.json members values)) members values
  | [], _, _, _ => trivial
  | member :: members, (value, values), hnodup, ⟨hvalue, hvalues⟩ => by
    rw [List.map_cons, List.nodup_cons] at hnodup
    have hrest : Entries.getAll member.name (Values.json members values) = [] :=
      Entries.getAll_eq_nil.mpr fun h => hnodup.1 (Values.names_json members values _ h)
    have hown : Entries.getAll member.name ((member.json? value).toList.map (member.name, ·)) =
        (member.json? value).toList := by
      cases member.json? value with
      | none => rfl
      | some document => exact Entries.getAll_cons_self ..
    have hothers : Values.Given route (Json.writtenMembers (Values.json members values)) members
        values := Values.given_json hroute hnodup.2 hvalues
    rw [Values.json_cons]
    refine ⟨?_, hothers.mono fun other hother found hfound => ?_⟩
    · rw [Json.getAll_writtenMembers, Entries.getAll_append, hown, hrest, List.append_nil]
      exact Member.given_json hroute hvalue
    · have hnone : Entries.getAll other.name ((member.json? value).toList.map (member.name, ·)) =
          [] := by
        refine Entries.getAll_eq_nil.mpr fun h => ?_
        rw [Entries.names, List.map_map] at h
        obtain ⟨_, -, (heq : member.name = other.name)⟩ := List.mem_map.mp h
        exact hnodup.1 (heq ▸ List.mem_map_of_mem hother)
      rw [Json.getAll_writtenMembers] at hfound ⊢
      rwa [Entries.getAll_append, hnone, List.nil_append]

/-! ## Types -/

theorem findVariant_tag {α : Type} {variants : List (Variant α)} {variant : Variant α}
    (hnodup : (variants.map Variant.tag).Nodup) (h : variant ∈ variants) :
    findVariant variants variant.tag = .ok variant := by
  have hfind : variants.find? (fun other => other.tag == variant.tag) = some variant := by
    induction variants with
    | nil => exact absurd h List.not_mem_nil
    | cons first variants ih =>
      rw [List.map_cons, List.nodup_cons] at hnodup
      rcases List.mem_cons.mp h with rfl | h
      · exact List.find?_cons_of_pos (beq_self_eq_true _)
      · have hother : first.tag ≠ variant.tag := fun heq =>
          hnodup.1 (heq ▸ List.mem_map_of_mem h)
        rw [List.find?_cons_of_neg (by simpa using hother), ih hnodup.2 h]
  rw [findVariant, hfind]
  rfl

theorem Shape.gives_json {α : Type} {shape : Shape α} {route : Route} (hroute : route.Unbounded)
    (hnodup : (shape.members.map Member.name).Nodup) {values : Values shape.members}
    (h : Values.Sound readsBack shape.members values) :
    shape.Gives route (Json.writtenMembers (Values.json shape.members values))
      (shape.build values) :=
  ⟨values, Values.given_json hroute hnodup h, rfl⟩

/-- Whatever is made up of what is read back is read back. -/
theorem readsBack_kept : Kept readsBack := by
  intro type
  have hnames := namesApart type
  have hwrites := declaration_writes type
  have hdefaults : (declaration type).Keeps readsBack fun _ => True := defaults_sound type
  cases hdeclared : declaration type with
  | struct name shape =>
    rw [hdeclared] at hnames hwrites hdefaults
    refine ⟨hdefaults.defaults, fun values hvalues => ?_⟩
    rw [readsBack, hwrites values, Json.written, fromValue,
      readDocument_object_struct hdeclared Route.unbounded_value]
    exact Shape.gives_json Route.unbounded_value hnames hvalues
  | union name variants =>
    rw [hdeclared] at hnames hwrites hdefaults
    refine fun variant hvariant => ⟨(hdefaults variant hvariant).defaults, fun values hvalues => ?_⟩
    obtain ⟨htype, hnodup⟩ := hnames.2 variant hvariant
    rw [readsBack, hwrites variant hvariant values, Json.variant, Json.written, fromValue,
      readDocument_object_union hdeclared Route.unbounded_value]
    have hmembers : "type" ∉ Entries.names (Values.json variant.shape.members values) := fun h =>
      htype (Values.names_json _ _ _ h)
    obtain ⟨given, hgiven, hbuild⟩ := Shape.gives_json Route.unbounded_part hnodup hvalues
    refine ⟨.string variant.tag, variant, ?named, findVariant_tag hnames.1 hvariant, given,
      hgiven.mono fun member hmember value hvalue => ?others, hbuild⟩
    case named =>
      rw [Json.getAll_writtenMembers, Entries.getAll_cons_self, Entries.getAll_eq_nil.mpr hmembers]
      rfl
    case others =>
      have hother : "type" ≠ member.name := fun heq => htype (heq ▸ List.mem_map_of_mem hmember)
      rwa [Json.writtenMembers, Entries.getAll_cons_of_ne hother]
  | symbols names =>
    rw [hdeclared] at hnames hwrites
    intro entry hentry
    rw [readsBack, hwrites entry hentry]
    have hread : fromValue (.named type) (Json.string entry.1).written =
        readScalar (.string entry.1) (.named type) .value := rfl
    have hfind : findSymbol names entry.1 = .ok entry.2 := by
      rw [findSymbol, Entries.get?_of_mem hnames hentry]
      rfl
    rw [hread]
    unfold readScalar
    dsimp only
    rw [hdeclared]
    exact hfind

/-- A request that was read in any form is read back from its canonical document. -/
theorem fromValue_request {document : Written} {route : Route} {request : Request}
    (h : readDocument document (.named .request) route = .ok request) :
    fromValue (.named .request) request.json.written = .ok request :=
  Kind.fromValue_json (readDocument_sound readsBack_kept document h)

/-- Of a request that was read in any form, the canonical document keeps all: it is read as the
request by every route that can take it in whole, what is read from it is written as it is, and no
other request is written so. A fingerprint is shared with another request only where the digests of
their canonical texts collide, no two of their doubles being printed alike. -/
theorem canonical_requests_keep_all {document : Written} {route : Route} {request : Request}
    (h : readDocument document (.named .request) route = .ok request) :
    (∀ other : Route, other.isSound request.json.written = true →
        readDocument request.json.written (.named .request) other = .ok request) ∧
      (∀ other again, readDocument request.json.written (.named .request) other = .ok again →
        again.json = request.json) ∧
      ∀ {origin : Written} {way : Route} {second : Request},
        readDocument origin (.named .request) way = .ok second →
          (second.json = request.json → second = request) ∧
          (Json.PrintedApart second.json.doubles request.json.doubles →
            second.fingerprint = request.fingerprint →
              second = request ∨ Sha256.Collide second.json.text request.json.text) := by
  have hvalue := fromValue_request h
  have hread : ∀ other : Route, other.isSound request.json.written = true →
      readDocument request.json.written (.named .request) other = .ok request := fun other hsound =>
    readDocument_of_outer _ Route.outer_value hsound hvalue
  refine ⟨hread, fun other again hagain => ?again, fun {origin way second} hsecond => ?_⟩
  case again =>
    by_cases hpart : other = .part
    · subst hpart
      rw [Except.ok.inj ((hread .part rfl).symm.trans hagain)]
    · have hback : fromValue (.named .request) request.json.written = .ok again :=
        readDocument_of_outer _ hpart (Route.unbounded_value.isSound _) hagain
      rw [Except.ok.inj (hvalue.symm.trans hback)]
  have hinj : second.json = request.json → second = request := by
    intro hjson
    have hback := fromValue_request hsecond
    rw [hjson] at hback
    exact Except.ok.inj (hback.symm.trans hvalue)
  refine ⟨hinj, fun hapart hfingerprint => ?_⟩
  by_cases htext : second.json.text = request.json.text
  · exact .inl (hinj (Json.text_inj hapart htext))
  · exact .inr ⟨htext, hfingerprint⟩

/-- A request with its members in another order, one of them unknown, and its order as an array. -/
theorem sorted_orders_keep_all :
    let document : Json := .object [("note", .bool true),
      ("query", .object [("limit", .null), ("order_by", .array [.array []]),
        ("fields", .object [("total", .object [("column", .string "amount"),
          ("type", .string "column")]), ("id", .array [.string "column", .string "id"])])]),
      ("collection", .string "orders")]
    let request : Request := ⟨"orders", ⟨some [("total", .column "amount"), ("id", .column "id")],
      none, none, none, some ⟨[]⟩, none, none⟩, [], none⟩
    fromValue (.named .request) document.written = .ok request ∧
      readDocument request.json.written (.named .request) (.text 5) = .ok request := by
  intro document request
  have hread : fromValue (.named .request) document.written = .ok request := rfl
  exact ⟨hread, (canonical_requests_keep_all hread).1 (.text 5)
    (Route.isSound_written (by decide))⟩

end Wire

end NestedSql
