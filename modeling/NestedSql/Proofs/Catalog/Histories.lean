import NestedSql.Proofs.Catalog.Usable

/-!
# Schemas after registrations

A schema that starts empty is what its registrations make of it. Each of them keeps the three lists
of the schema in step and leaves all other collections where they are. So a collection stands where
it was registered first, and both its storage text and its row type are those of its last
registration. Columns behave alike: one that is named twice keeps its place and its last type.
-/

namespace NestedSql

/-! ## Registrations -/

/-- A registration of a collection under a storage text, by its columns or with a row type. -/
inductive Registration where
  | columns (collection storage : String) (columns : List (String × FieldType))
  | rowType (collection storage : String) (type : RowType)

namespace Registration

def collection : Registration → String
  | columns collection _ _ | rowType collection _ _ => collection

def storage : Registration → String
  | columns _ storage _ | rowType _ storage _ => storage

/-- The columns without descriptions. -/
def described (columns : List (String × FieldType)) : List (String × RowField) :=
  columns.map fun column => (column.1, ⟨column.2, none⟩)

def type : Registration → RowType
  | columns _ _ listed => ⟨Entries.ofPairs (described listed), none⟩
  | rowType _ _ type => type

/-- The schema after the registration. -/
def apply (schema : Schema) : Registration → Schema
  | columns collection storage listed => schema.registerColumns collection storage listed
  | rowType collection storage type => schema.register collection storage type

theorem apply_eq (schema : Schema) (registration : Registration) :
    apply schema registration =
      schema.register registration.collection registration.storage registration.type := by
  cases registration <;> rfl

/-- The last registration of a collection. -/
def last? (name : String) (registrations : List Registration) : Option Registration :=
  (registrations.filter fun registration => registration.collection = name).getLast?

end Registration

namespace Entries

variable {α : Type}

/-- Putting a name leaves the entries of all others where they are. -/
theorem getElem?_put_of_ne {name other : String} (h : other ≠ name) (value found : α)
    (entries : Entries α) : ∀ i : Nat,
    (put name value entries)[i]? = some (other, found) ↔ entries[i]? = some (other, found) := by
  induction entries with
  | nil =>
    intro i
    cases i with
    | zero => simp [put, Ne.symm h]
    | succ i => exact Iff.rfl
  | cons entry entries ih =>
    obtain ⟨key, old⟩ := entry
    intro i
    rw [put]
    split
    · next hkey =>
      cases i with
      | zero => simp [hkey, Ne.symm h]
      | succ i => exact Iff.rfl
    · cases i with
      | zero => exact Iff.rfl
      | succ i => exact ih i

end Entries

namespace Schema

/-! ## One registration -/

/-- The three lists name the same collections in the same order, and none twice. -/
structure Consistent (schema : Schema) : Prop where
  distinct : schema.collections.Nodup
  stored : Entries.names schema.storage = schema.collections
  typed : Entries.names schema.rowTypes = schema.collections

/-- All other collections stand in each list where they stood, with what they had there. -/
structure OthersKept (collection : String) (before after : Schema) : Prop where
  collections : ∀ {other : String}, other ≠ collection → ∀ i : Nat,
    after.collections[i]? = some other ↔ before.collections[i]? = some other
  storage : ∀ {other : String}, other ≠ collection → ∀ (i : Nat) (text : String),
    after.storage[i]? = some (other, text) ↔ before.storage[i]? = some (other, text)
  rowTypes : ∀ {other : String}, other ≠ collection → ∀ (i : Nat) (type : RowType),
    after.rowTypes[i]? = some (other, type) ↔ before.rowTypes[i]? = some (other, type)

section Step

variable {schema : Schema} (collection storage : String) (type : RowType)

theorem Consistent.register (h : schema.Consistent) :
    (schema.register collection storage type).Consistent := by
  have hstored : Entries.names (schema.register collection storage type).storage =
      (schema.register collection storage type).collections := by
    rw [Schema.register, Entries.names_put, h.stored]
  constructor
  case distinct =>
    rw [← hstored]
    refine Entries.distinct_put collection storage ?_
    rw [Entries.Distinct, h.stored]
    exact h.distinct
  case stored => exact hstored
  case typed => rw [Schema.register, Entries.names_put, h.typed]

theorem othersKept_register :
    OthersKept collection schema (schema.register collection storage type) := by
  constructor
  case collections =>
    intro other hother i
    rw [Schema.register]
    split
    · exact Iff.rfl
    · rw [List.getElem?_append]
      split
      · exact Iff.rfl
      · next hi =>
        rw [List.getElem?_eq_none (Nat.le_of_not_lt hi)]
        cases i - schema.collections.length with
        | zero => simp [Ne.symm hother]
        | succ n => simp
  case storage => exact fun hother i text => Entries.getElem?_put_of_ne hother storage text _ i
  case rowTypes => exact fun hother i other => Entries.getElem?_put_of_ne hother type other _ i

end Step

/-! ## Runs of registrations -/

/-- The schema after some registrations, the first of them into the empty schema. -/
def after (registrations : List Registration) : Schema :=
  registrations.foldl Registration.apply .empty

section Runs

variable (registrations : List Registration)

theorem after_concat (registration : Registration) :
    after (registrations ++ [registration]) =
      (after registrations).register registration.collection registration.storage
        registration.type := by
  rw [after, List.foldl_append, List.foldl_cons, List.foldl_nil, Registration.apply_eq]
  rfl

theorem after_eq_foldl : after registrations = registrations.foldl (fun schema registration =>
    schema.register registration.collection registration.storage registration.type) .empty := by
  rw [after, funext₂ Registration.apply_eq]

theorem consistent_after : (after registrations).Consistent := by
  induction registrations using List.reverseRecOn with
  | nil => exact ⟨List.nodup_nil, rfl, rfl⟩
  | append_singleton registrations registration ih =>
    rw [after_concat]
    exact ih.register _ _ _

theorem storage_after : (after registrations).storage = Entries.ofPairs
    (registrations.map fun registration => (registration.collection, registration.storage)) := by
  rw [after_eq_foldl, Catalog.storage_foldl_register]
  rfl

theorem rowTypes_after : (after registrations).rowTypes = Entries.ofPairs
    (registrations.map fun registration => (registration.collection, registration.type)) := by
  rw [after_eq_foldl, Catalog.rowTypes_foldl_register]
  rfl

theorem collections_after :
    (after registrations).collections =
      (registrations.map Registration.collection).eraseDups := by
  rw [← (consistent_after registrations).stored, storage_after, Entries.names_ofPairs,
    List.map_map]
  rfl

/-- Both what is stored and the row type come from the last registration. -/
theorem get?_after {α : Type} (value : Registration → α) (name : String) :
    Entries.get? name (Entries.ofPairs
      (registrations.map fun registration => (registration.collection, value registration))) =
      (Registration.last? name registrations).map value := by
  rw [Entries.get?_ofPairs_last, List.filter_map, List.getLast?_map, Option.map_map]
  rfl

end Runs

/-! ## Columns -/

/-- A registered column stands where it is named first and has the type that it is given last. -/
structure ColumnsOf (columns : List (String × FieldType)) (type : RowType) : Prop where
  names : Entries.names type.fields = (columns.map Prod.fst).eraseDups
  fields : ∀ name, type.field? name =
    (columns.filter fun column => column.1 = name).getLast?.map fun column => ⟨column.2, none⟩
  description : type.description = none

theorem columnsOf_type (collection storage : String) (columns : List (String × FieldType)) :
    ColumnsOf columns (Registration.columns collection storage columns).type := by
  constructor
  case names =>
    rw [Registration.type, Entries.names_ofPairs, Registration.described, List.map_map]
    rfl
  case fields =>
    intro name
    rw [RowType.field?, Registration.type, Entries.get?_ofPairs_last, Registration.described,
      List.filter_map, List.getLast?_map, Option.map_map]
    rfl
  case description => rfl

/-- After any registrations the lists of the schema are in step and in the order of the first
registrations, every collection has the storage text and the row type of its last one, the columns
among them as they were given, and one registration more leaves all others alone. -/
theorem registrations_keep_schema_consistent (registrations : List Registration) :
    (after registrations).Consistent ∧
    (after registrations).collections =
      (registrations.map Registration.collection).eraseDups ∧
    (∀ name, (after registrations).storage? name =
        (Registration.last? name registrations).map Registration.storage ∧
      (after registrations).rowType? name =
        (Registration.last? name registrations).map Registration.type) ∧
    (∀ name collection storage columns,
      Registration.last? name registrations = some (.columns collection storage columns) →
        ∃ type, (after registrations).rowType? name = some type ∧ ColumnsOf columns type) ∧
    ∀ registration, OthersKept registration.collection (after registrations)
      (after (registrations ++ [registration])) := by
  have htypes : ∀ name, (after registrations).rowType? name =
      (Registration.last? name registrations).map Registration.type := by
    intro name
    rw [rowType?, rowTypes_after, get?_after]
  refine ⟨consistent_after registrations, collections_after registrations,
    fun name => ⟨?storage, htypes name⟩, ?columns, fun registration => ?others⟩
  case storage => rw [storage?, storage_after, get?_after]
  case columns =>
    intro name collection storage columns hlast
    refine ⟨_, ?_, columnsOf_type collection storage columns⟩
    rw [htypes, hlast, Option.map_some]
  case others =>
    rw [after_concat]
    exact othersKept_register _ _ _

/-- A collection that is registered again keeps its place, with its new columns. -/
example :
    (after [.columns "users" "main.users" [("id", .named "Int")],
      .rowType "orders" "main.orders" ⟨[], none⟩,
      .columns "users" "app.users"
        [("name", .named "Int"), ("id", .named "Int"), ("name", .named "String")]]) =
      ⟨["users", "orders"], [("users", "app.users"), ("orders", "main.orders")],
        [("users", ⟨[("name", ⟨.named "String", none⟩), ("id", ⟨.named "Int", none⟩)], none⟩),
          ("orders", ⟨[], none⟩)]⟩ := by
  decide

end Schema

end NestedSql
