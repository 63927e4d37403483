import NestedSql.Proofs.Wire.Forms

/-!
# Documents of the promised shapes

A rows document is an object with an array of objects under one name, a group one with an array and
an object, and each may also be written as the array of its members. What these documents show is
said here without a reader, and the readers of statements are shown to accept exactly these. It is
said of documents that name each member once, which all values of texts do.
-/

namespace NestedSql

namespace Entries

variable {α : Type}

theorem getAll_of_distinct {entries : List (String × α)} (h : Distinct entries) (name : String) :
    getAll name entries = (get? name entries).toList := by
  induction entries with
  | nil => rfl
  | cons entry entries ih =>
    obtain ⟨key, value⟩ := entry
    rw [Distinct, names_cons, List.nodup_cons] at h
    rw [get?]
    split
    · next hkey =>
      obtain rfl : key = name := hkey
      rw [getAll_cons_self, getAll_eq_nil.mpr h.1]
      rfl
    · next hkey => rw [getAll_cons_of_ne hkey, ih h.2]

end Entries

/-! ## Shapes -/

namespace Json

/-- The document shows the rows: under their name, or in the place of the one member. -/
inductive ShowsRows : Json → List Row → Prop
  | object {members : List (String × Json)} {rows : List Row} :
      Entries.get? "rows" members = some (.array (rows.map .object)) →
        ShowsRows (.object members) rows
  | array (rows : List Row) : ShowsRows (.array [.array (rows.map .object)]) rows

/-- The document shows the group: under the names of its two members, or in their places. -/
inductive ShowsGroup : Json → Group → Prop
  | object {members : List (String × Json)} {group : Group} :
      Entries.get? "dimensions" members = some (.array group.dimensions) →
        Entries.get? "aggregates" members = some (.object group.aggregates) →
          ShowsGroup (.object members) group
  | array (group : Group) :
      ShowsGroup (.array [.array group.dimensions, .object group.aggregates]) group

/-- The document shows one group after the other. -/
def ShowsGroups (document : Json) (groups : List Group) : Prop :=
  ∃ items, document = .array items ∧ List.Forall₂ ShowsGroup items groups

end Json

namespace Wire

/-! ## Values that a document stands for -/

theorem readDocument_free_eq_ok {document value : Json} (h : document.merged = document) :
    readDocument document.written .free .value = .ok value ↔ document = value := by
  rw [readDocument_free document h]
  exact ⟨Except.ok.inj, congrArg _⟩

theorem readDocument_map_free_eq_ok {document : Json} (h : document.merged = document)
    {entries : Entries Json} :
    readDocument document.written (.map .free) .value = .ok entries ↔
      document = .object entries := by
  cases document with
  | object members =>
    rw [readDocument_map h]
    exact ⟨fun heq => congrArg _ (Except.ok.inj heq), fun heq => congrArg _ (Json.object.inj heq)⟩
  | array items =>
    refine ⟨fun heq => ?_, nofun⟩
    unfold Json.written readDocument at heq
    exact absurd heq wrongType_ne_ok
  | null | bool value | number value | string value =>
    refine ⟨fun heq => ?_, nofun⟩
    unfold Json.written readDocument readScalar at heq
    exact absurd heq wrongType_ne_ok

theorem readDocument_list_written_eq_ok {document : Json} {kind : Kind}
    {values : List kind.Value} :
    readDocument document.written (.list kind) .value = .ok values ↔
      ∃ items, document = .array items ∧ List.Forall₂ (fun item value =>
        readDocument item.written kind .value = .ok value) items values := by
  cases document with
  | array items =>
    rw [Json.written, readDocument_list_eq_ok Route.unbounded_value, Json.writtenItems_eq,
      List.forall₂_map_left_iff]
    constructor
    · exact fun h => ⟨items, rfl, h⟩
    · rintro ⟨items, ⟨⟩, h⟩
      exact h
  | object members =>
    refine ⟨fun heq => ?_, nofun⟩
    unfold Json.written readDocument at heq
    exact absurd heq wrongType_ne_ok
  | null | bool value | number value | string value =>
    refine ⟨fun heq => ?_, nofun⟩
    unfold Json.written readDocument readScalar at heq
    exact absurd heq wrongType_ne_ok

theorem forall₂_congr {α β : Type} {related linked : α → β → Prop} {items : List α}
    {values : List β} (h : ∀ item ∈ items, ∀ value, related item value ↔ linked item value) :
    List.Forall₂ related items values ↔ List.Forall₂ linked items values := by
  induction items generalizing values with
  | nil => rw [List.forall₂_nil_left_iff, List.forall₂_nil_left_iff]
  | cons item items ih =>
    obtain ⟨hitem, hitems⟩ := List.forall_mem_cons.mp h
    cases values with
    | nil => exact ⟨nofun, nofun⟩
    | cons value values => rw [List.forall₂_cons, List.forall₂_cons, hitem, ih hitems]

section Items

variable {kind : Kind} {write : kind.Value → Json}
  (hread : ∀ item : Json, item.merged = item → ∀ value,
    readDocument item.written kind .value = .ok value ↔ item = write value)

include hread

theorem forall₂_read {items : List Json} (h : ∀ item ∈ items, item.merged = item)
    {values : List kind.Value} :
    List.Forall₂ (fun item value => readDocument item.written kind .value = .ok value) items
      values ↔ items = values.map write := by
  have hwritten : List.Forall₂ (fun item value => item = write value) items values ↔
      items = values.map write := by
    rw [← List.forall₂_map_right_iff, List.forall₂_eq_eq_eq]
  rw [forall₂_congr fun item hitem => hread item (h item hitem), hwritten]

/-- Where the values of a kind are written in one way, so are lists of them. -/
theorem readDocument_list_of_items {document : Json} (h : document.merged = document)
    {values : List kind.Value} :
    readDocument document.written (.list kind) .value = .ok values ↔
      document = .array (values.map write) := by
  rw [readDocument_list_written_eq_ok]
  constructor
  · rintro ⟨items, rfl, hitems⟩
    rw [(forall₂_read hread (Json.items_of_merged h)).mp hitems]
  · rintro rfl
    exact ⟨_, rfl, (forall₂_read hread (Json.items_of_merged h)).mpr rfl⟩

end Items

theorem readDocument_list_free_eq_ok {document : Json} (h : document.merged = document)
    {values : List Json} :
    readDocument document.written (.list .free) .value = .ok values ↔ document = .array values := by
  have hread : readDocument document.written (.list .free) .value = .ok values ↔
      document = .array (values.map fun item => item) :=
    readDocument_list_of_items (fun _ hitem _ => readDocument_free_eq_ok hitem) h
  rwa [List.map_id'] at hread

theorem readDocument_rows_eq_ok {document : Json} (h : document.merged = document)
    {rows : List Row} :
    readDocument document.written (.list (.map .free)) .value = .ok rows ↔
      document = .array (rows.map .object) :=
  readDocument_list_of_items (fun _ hitem _ => readDocument_map_free_eq_ok hitem) h

/-! ## Structures -/

/-- A structure is read from the members of an object or from the items of an array. -/
theorem fromValue_struct_eq_ok {type : TypeName} {name : String} {shape : Shape type.Carrier}
    (hdeclared : declaration type = .struct name shape) {document : Json} {value : type.Carrier} :
    fromValue (.named type) document.written = .ok value ↔
      (∃ members, document = .object members ∧
        shape.Gives .value (Json.writtenMembers members) value) ∨
      ∃ items, document = .array items ∧ items.length ≤ shape.members.length ∧
        shape.Gives .value (positions shape.members (items.map Json.written)) value := by
  cases document with
  | object members =>
    rw [Json.written, fromValue, readDocument_object_struct hdeclared Route.unbounded_value]
    simp only [Json.object.injEq, exists_eq_left', reduceCtorEq, false_and, exists_false, or_false]
  | array items =>
    rw [Json.written, fromValue, readDocument_array_struct hdeclared Route.unbounded_value,
      Json.writtenItems_eq, List.length_map]
    simp only [Json.array.injEq, exists_eq_left', reduceCtorEq, false_and, exists_false, false_or]
  | null | bool value | number value | string value =>
    simp only [reduceCtorEq, false_and, exists_false, or_false, iff_false]
    intro heq
    unfold fromValue Json.written readDocument readScalar at heq
    dsimp only at heq
    rw [hdeclared] at heq
    exact absurd heq wrongType_ne_ok

/-- A member that has to be there is given by the one value under its name. -/
theorem given_of_distinct {name : String} {kind : Kind} {members : List (String × Json)}
    (h : Entries.Distinct members) {value : kind.Value} :
    Member.Given .value ⟨name, kind, .required⟩
        (Entries.getAll name (Json.writtenMembers members)) value ↔
      ∃ document, Entries.get? name members = some document ∧
        readDocument document.written kind .value = .ok value := by
  rw [Json.getAll_writtenMembers, Entries.getAll_of_distinct h]
  cases Entries.get? name members with
  | none => exact ⟨nofun, nofun⟩
  | some document =>
    constructor
    · exact fun hgiven => ⟨document, rfl, hgiven⟩
    · rintro ⟨_, ⟨⟩, hread⟩
      exact hread

/-! ## Documents of statements -/

/-- The members of a document that is read as itself are read as themselves. -/
theorem merged_of_get? {members : List (String × Json)} {name : String} {part : Json}
    (h : (Json.object members).merged = .object members)
    (hpart : Entries.get? name members = some part) : part.merged = part :=
  (Json.members_of_merged h).2 (name, part) (Entries.mem_of_get? hpart)

theorem fromValue_rowsDocument_eq_ok {document : Json} (h : document.merged = document)
    {rows : List Row} :
    fromValue (.named .rowsDocument) document.written = .ok ⟨rows⟩ ↔ document.ShowsRows rows := by
  have hdeclared : declaration .rowsDocument = .struct _ _ := rfl
  rw [fromValue_struct_eq_ok hdeclared]
  constructor
  · rintro (⟨members, rfl, ⟨found, _⟩, ⟨hfound, -⟩, hbuild⟩ |
      ⟨items, rfl, hlength, ⟨found, _⟩, ⟨hfound, -⟩, hbuild⟩)
    · obtain rfl : found = rows := congrArg RowsDocument.rows hbuild
      obtain ⟨part, hpart, hread⟩ := (given_of_distinct (Json.members_of_merged h).1).mp hfound
      obtain rfl := (readDocument_rows_eq_ok (merged_of_get? h hpart)).mp hread
      exact .object hpart
    · obtain rfl : found = rows := congrArg RowsDocument.rows hbuild
      match items, hlength, hfound with
      | [part], _, hread =>
        have hpart := Json.items_of_merged h part List.mem_cons_self
        obtain rfl := (readDocument_rows_eq_ok hpart).mp hread
        exact .array found
  · rintro (hpart | _)
    · have hread := (readDocument_rows_eq_ok (merged_of_get? h hpart)).mpr rfl
      have hgiven := (given_of_distinct (Json.members_of_merged h).1).mpr ⟨_, hpart, hread⟩
      exact .inl ⟨_, rfl, (rows, ()), ⟨hgiven, trivial⟩, rfl⟩
    · have hpart := Json.items_of_merged h _ List.mem_cons_self
      have hread := (readDocument_rows_eq_ok hpart).mpr rfl
      exact .inr ⟨_, rfl, Nat.le_refl 1, (rows, ()), ⟨hread, trivial⟩, rfl⟩

theorem fromValue_group_eq_ok {document : Json} (h : document.merged = document)
    {group : Group} :
    fromValue (.named .group) document.written = .ok group ↔ document.ShowsGroup group := by
  have hdeclared : declaration .group = .struct _ _ := rfl
  rw [fromValue_struct_eq_ok hdeclared]
  constructor
  · rintro (⟨members, rfl, ⟨dimensions, aggregates, _⟩, ⟨hdimensions, haggregates, -⟩, rfl⟩ |
      ⟨items, rfl, hlength, ⟨dimensions, aggregates, _⟩, ⟨hdimensions, haggregates, -⟩, rfl⟩)
    · have hdistinct := (Json.members_of_merged h).1
      obtain ⟨first, hfirst, hread⟩ := (given_of_distinct hdistinct).mp hdimensions
      obtain rfl := (readDocument_list_free_eq_ok (merged_of_get? h hfirst)).mp hread
      obtain ⟨second, hsecond, hread⟩ := (given_of_distinct hdistinct).mp haggregates
      obtain rfl := (readDocument_map_free_eq_ok (merged_of_get? h hsecond)).mp hread
      exact .object hfirst hsecond
    · match items, hlength, hdimensions, haggregates with
      | [first, second], _, hread, hother =>
        have hitems := Json.items_of_merged h
        obtain rfl := (readDocument_list_free_eq_ok (hitems first List.mem_cons_self)).mp hread
        obtain rfl := (readDocument_map_free_eq_ok
          (hitems second (List.mem_cons_of_mem _ List.mem_cons_self))).mp hother
        exact .array ⟨dimensions, aggregates⟩
  · rintro (⟨hfirst, hsecond⟩ | _)
    · have hdistinct := (Json.members_of_merged h).1
      have hdimensions := (readDocument_list_free_eq_ok (merged_of_get? h hfirst)).mpr rfl
      have haggregates := (readDocument_map_free_eq_ok (merged_of_get? h hsecond)).mpr rfl
      exact .inl ⟨_, rfl, (group.dimensions, group.aggregates, ()),
        ⟨(given_of_distinct hdistinct).mpr ⟨_, hfirst, hdimensions⟩,
          (given_of_distinct hdistinct).mpr ⟨_, hsecond, haggregates⟩, trivial⟩, rfl⟩
    · have hitems := Json.items_of_merged h
      have hdimensions := (readDocument_list_free_eq_ok (hitems _ List.mem_cons_self)).mpr rfl
      have haggregates := (readDocument_map_free_eq_ok
        (hitems _ (List.mem_cons_of_mem _ List.mem_cons_self))).mpr rfl
      exact .inr ⟨_, rfl, Nat.le_refl 2, (group.dimensions, group.aggregates, ()),
        ⟨hdimensions, haggregates, trivial⟩, rfl⟩

theorem fromValue_groups_eq_ok {document : Json} (h : document.merged = document)
    {groups : List Group} :
    fromValue (.list (.named .group)) document.written = .ok groups ↔
      document.ShowsGroups groups := by
  rw [fromValue, readDocument_list_written_eq_ok]
  have hitems : ∀ items, document = .array items → ∀ item ∈ items, ∀ group,
      readDocument item.written (.named .group) .value = .ok group ↔ item.ShowsGroup group := by
    rintro items rfl item hitem group
    exact fromValue_group_eq_ok (Json.items_of_merged h item hitem)
  refine exists_congr fun items => and_congr_right fun hdocument => ?_
  exact forall₂_congr (hitems items hdocument)

end Wire

end NestedSql
