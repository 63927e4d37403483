import NestedSql.Proofs.Columns.Lookups
import NestedSql.Proofs.Columns.Narrowed

/-!
# Declared columns

Columns of output fields, filters and dimensions are looked up in the collection that they are read
from, and a column of a sort key in the collection where its path ends. So the statements of a
compiled request mention declared columns only, as far as these places go, and a request that would
mention another one fails with a configuration fault. Columns of mappings and of aggregates are not
looked up: a request that names an undeclared column there compiles.
-/

namespace NestedSql.Compile

open Sql (Select)

/-- Columns that are looked up in the collection of their item are declared for it. So all columns
are, exactly if those are that are looked up elsewhere or nowhere. -/
theorem AllAccounted.declared_iff {context : Context} {uses : List Use}
    (h : AllAccounted context uses) : (∀ use ∈ uses, use.Declared context) ↔
      ∀ use ∈ uses, use.lookedUp? ≠ some use.collection → use.Declared context := by
  constructor
  · exact fun hall use hmem _ => hall use hmem
  · intro hothers use hmem
    by_cases hown : use.lookedUp? = some use.collection
    · exact fun column hcolumn => (h use hmem).found use.collection column hown hcolumn
    · exact hothers use hmem hown

/-- Over a smaller schema the same uses are accounted for, or the request fails for a column that
the smaller schema lacks. -/
theorem compile_narrowed {schema narrow : Schema} {request : Request} {bindings : VariableSet}
    {plan : Plan} (h : request.compile schema bindings = .ok plan)
    (hnarrow : Context.Narrows ⟨schema, request.relationships, bindings⟩
      ⟨narrow, request.relationships, bindings⟩) {uses : NodeUses}
    (huses : nodeUses request.relationships schema.storage? 0 request.collection none
      request.query = some uses) :
    (request.compile narrow bindings = .ok plan ∧
      AllAccounted ⟨narrow, request.relationships, bindings⟩ uses.all) ∨
    ∃ fault, request.compile narrow bindings = .error fault ∧
      Lacks ⟨schema, request.relationships, bindings⟩ ⟨narrow, request.relationships, bindings⟩
        fault := by
  have hcompiled : Narrowed _ _ (request.compile schema bindings)
      (request.compile narrow bindings) :=
    (node_narrowed hnarrow request.collection _ none request.query).map Plan.ofNode
  obtain hsame | hfault := hcompiled plan h
  · obtain ⟨result, hroot, -⟩ := compile_eq_ok.mp hsame
    obtain ⟨others, hothers, haccounted⟩ := node_accounted _ _ _ none _ hroot 0 none nofun
    have hstorage : narrow.storage? = schema.storage? := funext hnarrow.storage
    rw [hstorage, huses] at hothers
    obtain rfl := Option.some.inj hothers
    exact .inl ⟨hsame, haccounted⟩
  · exact .inr hfault

/-- The statements of a compiled request mention columns of items that are stored for a collection.
All of them are declared for that collection exactly if those of mappings and aggregates are, and
those of sort keys whose alias was joined for another collection. Over a schema with fewer columns
the request compiles to the same plan, with no fewer columns found, or fails with a configuration
fault that names a column which is missing. -/
theorem mentioned_columns_declared_iff {schema : Schema} {request : Request}
    {bindings : VariableSet} {plan : Plan} (h : request.compile schema bindings = .ok plan) :
    ∃ result uses,
      root ⟨schema, request.relationships, bindings⟩ request.collection request.query =
        .ok result ∧
      Plan.ofNode result = plan ∧
      nodeUses request.relationships schema.storage? 0 request.collection none request.query =
        some uses ∧
      result.Finds .outside uses.references ∧
      AllAccounted ⟨schema, request.relationships, bindings⟩ uses.all ∧
      ((∀ use ∈ uses.all, use.Declared ⟨schema, request.relationships, bindings⟩) ↔
        ∀ use ∈ uses.all, use.lookedUp? ≠ some use.collection →
          use.Declared ⟨schema, request.relationships, bindings⟩) ∧
      ∀ narrow : Schema, Context.Narrows ⟨schema, request.relationships, bindings⟩
          ⟨narrow, request.relationships, bindings⟩ →
        (request.compile narrow bindings = .ok plan ∧
          AllAccounted ⟨narrow, request.relationships, bindings⟩ uses.all) ∨
        ∃ fault, request.compile narrow bindings = .error fault ∧
          fault.kind = .configuration ∧
          Lacks ⟨schema, request.relationships, bindings⟩
            ⟨narrow, request.relationships, bindings⟩ fault := by
  obtain ⟨result, hroot, hplan⟩ := compile_eq_ok.mp h
  obtain ⟨references, hreferences, hfinds⟩ := node_references _ _ _ none _ hroot
    (List.cons_ne_nil _ _) .outside none .root
  obtain ⟨uses, huses, haccounted⟩ := node_accounted _ _ _ none _ hroot 0 none nofun
  have hmeant := nodeUses_references ⟨schema, request.relationships, bindings⟩ 0
    request.collection none request.query
  rw [huses] at hmeant
  obtain rfl : uses.references = references := Option.some.inj (hmeant.trans hreferences)
  refine ⟨result, uses, hroot, hplan, huses, hfinds, haccounted, haccounted.declared_iff, ?_⟩
  intro narrow hnarrow
  obtain hsame | ⟨fault, hfault, hlacks⟩ := compile_narrowed h hnarrow huses
  · exact .inl hsame
  · exact .inr ⟨fault, hfault, hlacks.kind, hlacks⟩

/-- Users with an `id`. -/
def friendsSchema : Schema :=
  Schema.empty.registerColumns "users" "memory.main.users" [("id", .named "Int")]

/-- The friends of all users, related by a column, and the greatest value of the column. -/
def friendsRequest (column : String) : Request where
  collection := "users"
  query :=
    { fields := some [("friends", .relationship "friend"
        ⟨some [("id", .column "id")], none, none, none, none, none, none⟩)]
      aggregates := some [("top", .singleColumn column "_max")]
      limit := none
      offset := none
      orderBy := none
      predicate := none
      groups := none }
  relationships := [("friend", ⟨[(column, "id")], .array, "users"⟩)]
  bindings := none

/-- The schema without any column. -/
def friendlessSchema : Schema := Schema.empty.registerColumns "users" "memory.main.users" []

theorem friends_columns_declared :
    ∃ plan uses, (friendsRequest "id").compile friendsSchema [] = .ok plan ∧
      nodeUses (friendsRequest "id").relationships friendsSchema.storage? 0 "users" none
        (friendsRequest "id").query = some uses ∧
      (∀ use ∈ uses.all, use.Declared ⟨friendsSchema, (friendsRequest "id").relationships, []⟩) ∧
      ∃ fault, (friendsRequest "id").compile friendlessSchema [] = .error fault ∧
        fault.kind = .configuration := by
  have hcompiled : (friendsRequest "id").compile friendsSchema [] = .ok _ := rfl
  obtain ⟨result, uses, -, -, huses, -, -, hiff, hnarrow⟩ :=
    mentioned_columns_declared_iff hcompiled
  refine ⟨_, uses, hcompiled, huses, ?declared, ?fails⟩
  case declared =>
    have hcolumns : ∀ use ∈ uses.all, use.collection = "users" ∧
        ∀ column ∈ use.reference.column, column = "id" := by
      obtain rfl := Option.some.inj (huses.symm.trans (rfl : _ = some _))
      decide
    refine hiff.mpr fun use hmem _ column hcolumn => ?_
    obtain ⟨hcollection, hname⟩ := hcolumns use hmem
    rw [hcollection, hname column hcolumn]
    exact ⟨.named "Int", rfl⟩
  case fails =>
    have hless : Context.Narrows ⟨friendsSchema, (friendsRequest "id").relationships, []⟩
        ⟨friendlessSchema, (friendsRequest "id").relationships, []⟩ := by
      refine ⟨rfl, rfl, fun _ => rfl, fun collection column type h => ?_⟩
      obtain ⟨row, hrow, field, hfield, -⟩ := Context.columnType?_eq_some.mp h
      obtain rfl : row = ⟨[], none⟩ :=
        congrArg Prod.snd (List.mem_singleton.mp (Entries.mem_of_get? hrow))
      cases hfield
    obtain ⟨hsame, -⟩ | ⟨fault, hfault, hkind, -⟩ := hnarrow friendlessSchema hless
    · cases hsame.symm.trans
        (rfl : (friendsRequest "id").compile friendlessSchema [] = .error _)
    · exact ⟨fault, hfault, hkind⟩

/-- The compiler reads a column of an aggregate and a column of a mapping that no collection
declares. -/
theorem undeclared_columns_mentioned :
    ∃ plan result, (friendsRequest "ghost").compile friendsSchema [] = .ok plan ∧
      root ⟨friendsSchema, (friendsRequest "ghost").relationships, []⟩ "users"
        (friendsRequest "ghost").query = .ok result ∧ Plan.ofNode result = plan ∧
      (∃ select, result.aggregates = some select ∧
        some ⟨⟨0, 0, none⟩, some "ghost"⟩ ∈ select.references .outside) ∧
      (∃ select, result.rows = some select ∧
        some ⟨⟨0, 0, some "memory.main.users"⟩, some "ghost"⟩ ∈ select.references .outside) ∧
      friendsSchema.collections = ["users"] ∧
      Context.columnType? ⟨friendsSchema, (friendsRequest "ghost").relationships, []⟩ "users"
        "ghost" = none := by
  refine ⟨_, _, rfl, rfl, rfl, ⟨_, rfl, ?_⟩, ⟨_, rfl, ?_⟩, rfl, rfl⟩
  · decide
  · decide

end NestedSql.Compile
