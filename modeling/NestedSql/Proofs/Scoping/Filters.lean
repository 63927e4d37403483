import NestedSql.Proofs.Compile.Steps
import NestedSql.Proofs.Scoping.References

/-!
# References of filters

The references that a filter is meant to have are given by the items themselves: its columns belong
to the item of its scope, and an existence test brings an item of its own, one clause further in.
No alias is read for that. If the alias of a scope names its item, the condition that a filter is
compiled to has these references, because the alias of an existence test is longer than the alias
around it and so hides nothing that is named inside.
-/

namespace NestedSql

namespace Sql.Visible

variable {visible : Visible}

theorem item?_enter_of_notMem {clause : Clause} {tableAlias : String}
    (h : tableAlias ∉ Entries.names (clause.items visible.depth)) :
    (visible.enter clause).item? tableAlias = visible.item? tableAlias := by
  rw [item?, enter, Entries.get?_append, Entries.get?_eq_none.mpr h]
  rfl

theorem item?_enter_single (tableAlias : String) (storage : Option String) :
    (visible.enter [(tableAlias, storage)]).item? tableAlias =
      some ⟨visible.depth, 0, storage⟩ := by
  rw [item?, enter, Entries.get?_append]
  simp [Clause.items, Entries.get?]

theorem item?_enter_single_of_ne {tableAlias other : String} (storage : Option String)
    (h : tableAlias ≠ other) :
    (visible.enter [(other, storage)]).item? tableAlias = visible.item? tableAlias := by
  apply item?_enter_of_notMem
  rw [Clause.items, List.mapIdx_cons, List.mapIdx_nil, Entries.names_cons, Entries.names_nil,
    List.mem_singleton]
  exact h

theorem column_of_item? {tableAlias : String} {item : Item}
    (h : visible.item? tableAlias = some item) (name : String) :
    visible.column ⟨tableAlias, name⟩ = some ⟨item, some name⟩ := by
  rw [column, h]
  rfl

end Sql.Visible

namespace Compile

open Sql (Condition Item Reference Visible referencesAll)

theorem Scope.existing_ne (scope : Scope) (collection : String) :
    scope.tableAlias ≠ (scope.existing collection).tableAlias := by
  intro h
  have hl := congrArg String.length h
  rw [Scope.existing, String.length_append] at hl
  have hs : "_exists".length = 7 := rfl
  omega

/-! ## References that are meant -/

/-- Both sides of a mapping between two items. -/
def mappingReferences (relationship : Relationship) (parent child : Item) : List Reference :=
  relationship.columnMapping.flatMap fun pair => [⟨parent, some pair.1⟩, ⟨child, some pair.2⟩]

mutual

/-- The references of a filter over an item, with so many clauses around the filter. -/
def filterReferences (context : Context) (depth : Nat) (item : Item) :
    Expression → Option (List Reference)
  | .and parts | .or parts => filtersReferences context depth item parts
  | .not part => filterReferences context depth item part
  | .unary target _ | .binary target _ _ => do return [⟨item, some (← namedColumn? target)⟩]
  | .existsIn (.unrelated _) _ => none
  | .existsIn (.related name) filter => do
    let relationship ← Entries.get? name context.relationships
    let storage ← context.schema.storage? relationship.target
    let inner : Item := ⟨depth, 0, some storage⟩
    let references ← optionalReferences context (depth + 1) inner filter
    return references ++ mappingReferences relationship item inner

/-- The references of a filter, if there is one. -/
def optionalReferences (context : Context) (depth : Nat) (item : Item) :
    Option Expression → Option (List Reference)
  | none => some []
  | some filter => filterReferences context depth item filter

def filtersReferences (context : Context) (depth : Nat) (item : Item) :
    List Expression → Option (List Reference)
  | [] => some []
  | part :: parts => do
    let references ← filterReferences context depth item part
    return references ++ (← filtersReferences context depth item parts)

end

/-! ## References that are found -/

theorem joinConditions_references {visible : Visible} {parent child : String}
    {parentItem childItem : Item} (hparent : visible.item? parent = some parentItem)
    (hchild : visible.item? child = some childItem) (relationship : Relationship) :
    referencesAll visible (joinConditions relationship parent child) =
      (mappingReferences relationship parentItem childItem).map some := by
  rw [joinConditions, mappingReferences]
  induction relationship.columnMapping with
  | nil => rfl
  | cons pair pairs ih =>
    have hp := Visible.column_of_item? hparent pair.1
    have hc := Visible.column_of_item? hchild pair.2
    rw [List.map_cons, referencesAll, ih, Condition.references, hp, hc, List.flatMap_cons,
      List.map_append]
    rfl

theorem referencesAll_append (visible : Visible) (first second : List Condition) :
    referencesAll visible (first ++ second) =
      referencesAll visible first ++ referencesAll visible second := by
  induction first with
  | nil => rfl
  | cons condition first ih =>
    rw [List.cons_append, referencesAll, referencesAll, ih, List.append_assoc]

theorem junction_references (visible : Visible) (connective : Sql.Connective)
    (conditions : List Condition) :
    (junction connective conditions).references visible = referencesAll visible conditions := by
  cases conditions <;> rfl

mutual

/-- The references of a compiled filter find the items that they are meant for. -/
theorem predicate_references (context : Context) : (scope : Scope) → (filter : Expression) →
    {condition : Condition} → predicate context scope filter = .ok condition →
    (visible : Visible) → (item : Item) → visible.item? scope.tableAlias = some item →
      ∃ references, filterReferences context visible.depth item filter = some references ∧
        condition.references visible = references.map some
  | scope, .and parts, _, h, visible, item, hitem => by
    obtain ⟨conditions, hparts, rfl⟩ := predicate_and_eq_ok.mp h
    rw [filterReferences, junction_references]
    exact predicates_references context scope parts hparts visible item hitem
  | scope, .or parts, _, h, visible, item, hitem => by
    obtain ⟨conditions, hparts, rfl⟩ := predicate_or_eq_ok.mp h
    rw [filterReferences, junction_references]
    exact predicates_references context scope parts hparts visible item hitem
  | scope, .not part, _, h, visible, item, hitem => by
    obtain ⟨condition, hpart, rfl⟩ := predicate_not_eq_ok.mp h
    rw [filterReferences, Condition.references]
    exact predicate_references context scope part hpart visible item hitem
  | scope, .unary target .isNull, _, h, visible, item, hitem => by
    obtain ⟨column, hcolumn, type, -, rfl⟩ := predicate_isNull_eq_ok.mp h
    rw [filterReferences, hcolumn]
    refine ⟨[⟨item, some column⟩], rfl, ?_⟩
    rw [Condition.references, Scope.column, Visible.column_of_item? hitem]
    rfl
  | scope, .binary target operator value, _, h, visible, item, hitem => by
    rw [predicate_binary_eq] at h
    obtain ⟨op, -, column, hcolumn, type, -, shape, -, param, -, rfl⟩ := comparison_eq_ok.mp h
    rw [filterReferences, hcolumn]
    refine ⟨[⟨item, some column⟩], rfl, ?_⟩
    rw [Condition.references, Scope.column, Visible.column_of_item? hitem]
    rfl
  | scope, .existsIn (.unrelated collection) filter, _, h, _, _, _ =>
    absurd h predicate_unrelated_ne_ok
  | scope, .existsIn (.related name) filter, _, h, visible, item, hitem => by
    obtain ⟨relationship, hrelationship, storage, hstorage, condition, hfilter, rfl⟩ :=
      predicate_related_eq_ok.mp h
    have hinner := visible.item?_enter_single (scope.existing relationship.target).tableAlias
      (some storage)
    -- the alias of the test is another one, so the scope around it can still be named
    have houter := (Visible.item?_enter_single_of_ne (some storage)
      (scope.existing_ne relationship.target)).trans hitem
    obtain ⟨references, hreferences, hfound⟩ :=
      existsCondition_references context _ filter hfilter _ _ hinner
    refine ⟨references ++ mappingReferences relationship item ⟨visible.depth, 0, some storage⟩,
      ?_, ?_⟩
    · rw [Visible.enter] at hreferences
      rw [filterReferences]
      simp only [hrelationship, hstorage, hreferences, Option.bind_eq_bind, Option.bind_some]
      rfl
    · rw [Condition.references, referencesAll, Sql.Table.entry, hfound,
        joinConditions_references houter hinner, List.map_append]

theorem existsCondition_references (context : Context) : (scope : Scope) →
    (filter : Option Expression) → {condition : Condition} →
    existsCondition context scope filter = .ok condition →
    (visible : Visible) → (item : Item) → visible.item? scope.tableAlias = some item →
      ∃ references, optionalReferences context visible.depth item filter = some references ∧
        condition.references visible = references.map some
  | scope, none, _, h, visible, item, _ => by
    obtain rfl := existsCondition_none_eq_ok.mp h
    exact ⟨[], rfl, rfl⟩
  | scope, some filter, _, h, visible, item, hitem => by
    obtain ⟨condition, hfilter, rfl⟩ := existsCondition_some_eq_ok.mp h
    rw [optionalReferences, Condition.references]
    exact predicate_references context scope filter hfilter visible item hitem

theorem predicates_references (context : Context) : (scope : Scope) →
    (parts : List Expression) → {conditions : List Condition} →
    predicates context scope parts = .ok conditions →
    (visible : Visible) → (item : Item) → visible.item? scope.tableAlias = some item →
      ∃ references, filtersReferences context visible.depth item parts = some references ∧
        referencesAll visible conditions = references.map some
  | scope, [], _, h, visible, item, _ => by
    obtain rfl := predicates_nil_eq_ok.mp h
    exact ⟨[], rfl, rfl⟩
  | scope, part :: parts, _, h, visible, item, hitem => by
    obtain ⟨condition, hpart, conditions, hparts, rfl⟩ := predicates_cons_eq_ok.mp h
    obtain ⟨first, hfirst, hfound⟩ :=
      predicate_references context scope part hpart visible item hitem
    obtain ⟨others, hothers, hall⟩ :=
      predicates_references context scope parts hparts visible item hitem
    refine ⟨first ++ others, ?_, ?_⟩
    · rw [filtersReferences, hfirst, hothers]
      rfl
    · rw [referencesAll, hfound, hall, List.map_append]

end

end Compile

end NestedSql
