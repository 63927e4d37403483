import NestedSql.Proofs.Columns.Uses

/-!
# Columns that are looked up

The compiler accounts for the uses of all that it compiles: the tables among their items are stored
for their collections, and every column that is looked up is declared where it is looked up. For the
joins and keys of an order this is kept from step to step, together with the sites that are known so
far. Which alias is joined already is known from the references, with which the uses are in step.
-/

namespace NestedSql.Compile

open Sql (Item Table Visible)

/-- A stored table has the storage text of its collection. -/
def Site.Stored (context : Context) (site : Site) : Prop :=
  ∀ storage, site.item.storage = some storage →
    context.schema.storage? site.collection = some storage

/-- The item belongs to the collection, and a column that is looked up is declared. -/
structure Use.Accounted (context : Context) (use : Use) : Prop where
  stored : Site.Stored context ⟨use.reference.item, use.collection⟩
  found : ∀ collection column, use.lookedUp? = some collection →
    use.reference.column = some column → ∃ type, context.columnType? collection column = some type

/-- The compiler accounts for all uses of a list. -/
def AllAccounted (context : Context) (uses : List Use) : Prop :=
  ∀ use ∈ uses, use.Accounted context

section Lists

variable {context : Context} {first second : List Use} {own : Site}

theorem AllAccounted.nil : AllAccounted context [] := List.forall_mem_nil _

theorem AllAccounted.append (hfirst : AllAccounted context first)
    (hsecond : AllAccounted context second) : AllAccounted context (first ++ second) :=
  List.forall_mem_append.mpr ⟨hfirst, hsecond⟩

theorem Site.stored_collection {depth index : Nat} {storage collection : String}
    (h : context.schema.storage? collection = some storage) :
    Site.Stored context ⟨⟨depth, index, some storage⟩, collection⟩ := by
  intro other hother
  obtain rfl := Option.some.inj hother
  exact h

theorem Site.Stored.derived (_ : own.Stored context) : own.derived.Stored context := nofun

/-- A column that is looked up nowhere. -/
theorem Site.Stored.unchecked (h : own.Stored context) (column : String) :
    (own.use .mapping column).Accounted context ∧ (own.use .argument column).Accounted context :=
  ⟨⟨h, nofun⟩, ⟨h, nofun⟩⟩

/-- Rows without a column. -/
theorem Site.Stored.allColumns (h : own.Stored context) : own.allColumns.Accounted context :=
  ⟨h, nofun⟩

/-- A column that is looked up in the collection of its item. -/
theorem Site.Stored.checked (h : own.Stored context) {place : Place} {column : String}
    (hplace : (own.use place column).lookedUp? = some own.collection) {type : FieldType}
    (htype : context.columnType? own.collection column = some type) :
    (own.use place column).Accounted context where
  stored := h
  found := by
    intro collection name hcollection hname
    obtain rfl := Option.some.inj (hplace.symm.trans hcollection)
    obtain rfl := Option.some.inj hname
    exact ⟨type, htype⟩

theorem mappingUses_accounted {parent child : Site} (hparent : parent.Stored context)
    (hchild : child.Stored context) (relationship : Relationship) :
    AllAccounted context (mappingUses relationship parent child) := by
  intro use hmem
  obtain ⟨pair, -, hmem⟩ := List.mem_flatMap.mp hmem
  obtain rfl | hmem := List.mem_cons.mp hmem
  · exact (hparent.unchecked pair.1).1
  · obtain rfl := List.mem_singleton.mp hmem
    exact (hchild.unchecked pair.2).1

theorem argumentUses_accounted (hown : own.Stored context) (aggregates : Entries Aggregate) :
    AllAccounted context (argumentUses own aggregates) := by
  intro use hmem
  obtain ⟨⟨name, aggregate⟩, -, hmem⟩ := List.mem_flatMap.mp hmem
  cases aggregate with
  | starCount => cases hmem
  | columnCount column distinct =>
    obtain rfl := List.mem_singleton.mp hmem
    exact (hown.unchecked column).2
  | singleColumn column function =>
    obtain rfl := List.mem_singleton.mp hmem
    exact (hown.unchecked column).2

theorem parentUses_accounted {parent : Option (Relationship × Site)} (hown : own.Stored context)
    (hparent : ∀ known, parent = some known → known.2.Stored context) :
    AllAccounted context (parentUses own parent) := by
  cases parent with
  | none => exact .nil
  | some known => exact mappingUses_accounted (hparent known rfl) hown known.1

end Lists

section Filters

variable (context : Context)

mutual

/-- The compiler accounts for the uses of a filter that it compiles. -/
theorem predicate_accounted : (scope : Scope) → (filter : Expression) →
    {condition : Sql.Condition} → predicate context scope filter = .ok condition →
    (depth : Nat) → (item : Item) → Site.Stored context ⟨item, scope.collection⟩ →
      ∃ uses, filterUses context.relationships context.schema.storage? depth
          ⟨item, scope.collection⟩ filter = some uses ∧ AllAccounted context uses
  | scope, .and parts, _, h, depth, item, hstored => by
    obtain ⟨conditions, hparts, -⟩ := predicate_and_eq_ok.mp h
    rw [filterUses]
    exact predicates_accounted scope parts hparts depth item hstored
  | scope, .or parts, _, h, depth, item, hstored => by
    obtain ⟨conditions, hparts, -⟩ := predicate_or_eq_ok.mp h
    rw [filterUses]
    exact predicates_accounted scope parts hparts depth item hstored
  | scope, .not part, _, h, depth, item, hstored => by
    obtain ⟨condition, hpart, -⟩ := predicate_not_eq_ok.mp h
    rw [filterUses]
    exact predicate_accounted scope part hpart depth item hstored
  | scope, .unary target .isNull, _, h, depth, item, hstored => by
    obtain ⟨column, hcolumn, type, htype, -⟩ := predicate_isNull_eq_ok.mp h
    rw [filterUses, hcolumn]
    exact ⟨_, rfl, List.forall_mem_singleton.mpr (hstored.checked rfl htype)⟩
  | scope, .binary target operator value, _, h, depth, item, hstored => by
    rw [predicate_binary_eq] at h
    obtain ⟨op, -, column, hcolumn, type, htype, -⟩ := comparison_eq_ok.mp h
    rw [filterUses, hcolumn]
    exact ⟨_, rfl, List.forall_mem_singleton.mpr (hstored.checked rfl htype)⟩
  | scope, .existsIn (.unrelated collection) filter, _, h, _, _, _ =>
    absurd h predicate_unrelated_ne_ok
  | scope, .existsIn (.related name) filter, _, h, depth, item, hstored => by
    obtain ⟨relationship, hrelationship, storage, hstorage, condition, hfilter, -⟩ :=
      predicate_related_eq_ok.mp h
    have hinner : Site.Stored context ⟨⟨depth, 0, some storage⟩, relationship.target⟩ :=
      Site.stored_collection hstorage
    obtain ⟨uses, huses, haccounted⟩ :=
      existsCondition_accounted (scope.existing relationship.target) filter hfilter (depth + 1)
        ⟨depth, 0, some storage⟩ hinner
    rw [Scope.existing] at huses
    rw [filterUses]
    simp only [hrelationship, hstorage, huses, Option.bind_eq_bind, Option.bind_some]
    exact ⟨_, rfl, haccounted.append (mappingUses_accounted hstored hinner relationship)⟩

theorem existsCondition_accounted : (scope : Scope) → (filter : Option Expression) →
    {condition : Sql.Condition} → existsCondition context scope filter = .ok condition →
    (depth : Nat) → (item : Item) → Site.Stored context ⟨item, scope.collection⟩ →
      ∃ uses, optionalUses context.relationships context.schema.storage? depth
          ⟨item, scope.collection⟩ filter = some uses ∧ AllAccounted context uses
  | scope, none, _, _, depth, item, _ => ⟨[], rfl, .nil⟩
  | scope, some filter, _, h, depth, item, hstored => by
    obtain ⟨condition, hfilter, -⟩ := existsCondition_some_eq_ok.mp h
    rw [optionalUses]
    exact predicate_accounted scope filter hfilter depth item hstored

theorem predicates_accounted : (scope : Scope) → (parts : List Expression) →
    {conditions : List Sql.Condition} → predicates context scope parts = .ok conditions →
    (depth : Nat) → (item : Item) → Site.Stored context ⟨item, scope.collection⟩ →
      ∃ uses, partsUses context.relationships context.schema.storage? depth
          ⟨item, scope.collection⟩ parts = some uses ∧ AllAccounted context uses
  | scope, [], _, _, depth, item, _ => ⟨[], rfl, .nil⟩
  | scope, part :: parts, _, h, depth, item, hstored => by
    obtain ⟨condition, hpart, conditions, hparts, -⟩ := predicates_cons_eq_ok.mp h
    obtain ⟨first, hfirst, haccounted⟩ :=
      predicate_accounted scope part hpart depth item hstored
    obtain ⟨others, hothers, hrest⟩ :=
      predicates_accounted scope parts hparts depth item hstored
    rw [partsUses, hfirst, hothers]
    exact ⟨_, rfl, haccounted.append hrest⟩

end

end Filters

/-! ## Orders -/

/-- The compiler accounts for the sites and uses so far. -/
structure UseWalk.Accounted (context : Context) (walk : UseWalk) : Prop where
  sites : ∀ entry ∈ walk.sites, entry.2.Stored context
  joins : AllAccounted context walk.joins
  keys : AllAccounted context walk.keys

/-- A compilation on a path, the uses so far, and the stop where the path is. -/
structure OnPath (context : Context) (visible : Visible) (table : Table)
    (state : Scope × Ordering) (seen : UseStop × UseWalk) : Prop where
  inStep : InStep visible table state (seen.1.stop, seen.2.walk)
  collection : seen.1.collection = state.1.collection
  stored : seen.1.site.Stored context
  walk : seen.2.Accounted context

section Orders

variable {context : Context} {visible : Visible} {table : Table} {ordering : Ordering}
  {scope : Scope} {walk : UseWalk} {own : Site}

theorem UseWalk.Accounted.start (h : own.Stored context) :
    (UseWalk.start own).Accounted context where
  sites := List.forall_mem_singleton.mpr h
  joins := .nil
  keys := .nil

theorem hopConditions_accounted {source target : Scope} {relationship : Relationship}
    {filter : Option Expression} {conditions : List Sql.Condition}
    (h : hopConditions context source target relationship filter = .ok conditions) (depth : Nat)
    {item : Item} (hstored : Site.Stored context ⟨item, target.collection⟩) :
    ∃ uses, optionalUses context.relationships context.schema.storage? depth
        ⟨item, target.collection⟩ filter = some uses ∧ AllAccounted context uses := by
  cases filter with
  | none => exact ⟨[], rfl, .nil⟩
  | some filter =>
    obtain ⟨condition, hfilter, -⟩ := hopConditions_some_eq_ok.mp h
    exact predicate_accounted context target filter hfilter depth item hstored

/-- A hop that is compiled keeps the compilation on the path. -/
theorem OnPath.followHop {element : PathElement} {state next : Scope × Ordering}
    {seen : UseStop × UseWalk} (h : followHop context state element = .ok next)
    (hs : OnPath context visible table state seen) :
    ∃ later, UseWalk.hop context.relationships context.schema.storage? visible.depth seen element =
      some later ∧ OnPath context visible table next later := by
  obtain ⟨scope, ordering⟩ := state
  obtain ⟨stop, walk⟩ := seen
  obtain ⟨references, hreferences, hnext⟩ := followHop_tracks h hs.inStep
  have hjoined := hs.inStep.isJoined_iff
  have hhop := hop_references context visible.depth stop walk element
  rw [hreferences] at hhop
  obtain ⟨later, hlater, rfl⟩ := Option.map_eq_some_iff.mp hhop
  refine ⟨later, hlater, ?_⟩
  obtain ⟨relationship, hrelationship, h⟩ := followHop_eq_ok.mp h
  have hsites := Entries.get?_mapped Site.item (stop.spelled ++ "_" ++ relationship.target)
    walk.sites
  replace hjoined := hjoined relationship.target
  rw [UseWalk.walk, UseStop.stop, hsites] at hjoined
  rw [UseWalk.hop, hrelationship] at hlater
  simp only [Option.bind_eq_bind, Option.bind_some] at hlater
  cases hsite : Entries.get? (stop.spelled ++ "_" ++ relationship.target) walk.sites with
  | some site =>
    rw [hsite] at hjoined hlater
    rw [if_pos (hjoined.mpr (Option.some_ne_none _))] at h
    obtain rfl := h
    obtain rfl := Option.some.inj hlater
    exact ⟨hnext, rfl, hs.walk.sites _ (Entries.mem_of_get? hsite), hs.walk⟩
  | none =>
    rw [hsite] at hjoined hlater
    rw [if_neg fun hyes => hjoined.mp hyes rfl] at h
    obtain ⟨storage, hstorage, conditions, hconditions, rfl⟩ := h
    have hstored : Site.Stored context
        ⟨⟨visible.depth, walk.sites.length, some storage⟩, relationship.target⟩ :=
      Site.stored_collection hstorage
    obtain ⟨uses, huses, haccounted⟩ :=
      hopConditions_accounted hconditions (visible.depth + 1) hstored
    rw [Scope.hop] at huses
    simp only [hstorage, huses, Option.bind_some] at hlater
    obtain rfl := Option.some.inj hlater
    exact ⟨hnext, rfl, hstored,
      { sites := List.forall_mem_append.mpr
          ⟨hs.walk.sites, List.forall_mem_singleton.mpr hstored⟩
        joins := hs.walk.joins.append
          ((mappingUses_accounted hs.stored hstored relationship).append haccounted)
        keys := hs.walk.keys }⟩

/-- A compiled sort key keeps the joins and keys in step with uses that are accounted for. -/
theorem addElement_accounted (hscope : scope.tableAlias = table.tableAlias)
    (hitem : own.item = ⟨visible.depth, 0, some table.storage⟩)
    (hcollection : own.collection = scope.collection) (hown : own.Stored context)
    {element : OrderByElement} {next : Ordering}
    (h : addElement context scope ordering element = .ok next)
    (ht : Tracks visible table ordering walk.walk) (hwalk : walk.Accounted context) :
    ∃ later, UseWalk.element context.relationships context.schema.storage? visible.depth own walk
        element = some later ∧ Tracks visible table next later.walk ∧ later.Accounted context := by
  obtain ⟨references, hreferences, hnext⟩ := addElement_tracks hscope h ht
  have helement := element_references context visible.depth own walk element
  rw [hitem, hreferences] at helement
  obtain ⟨later, hlater, rfl⟩ := Option.map_eq_some_iff.mp helement
  refine ⟨later, hlater, hnext, ?_⟩
  obtain ⟨direction, target⟩ := element
  cases target with
  | column name path =>
    obtain ⟨⟨reached, joined⟩, hpath, type, htype, -⟩ := addElement_column_eq_ok.mp h
    have hstart : OnPath context visible table (scope, ordering)
        (⟨"", own, own.collection⟩, walk) := by
      refine ⟨⟨ht, ?spelled, ?known⟩, hcollection, hown, hwalk⟩
      case spelled => rw [hscope, UseStop.stop, String.append_empty]
      case known =>
        rw [UseStop.stop, hitem]
        exact ht.known_start
    obtain ⟨⟨stop, keys⟩, hkeys, hreached⟩ :=
      foldlM_related (fun _ _ _ _ => OnPath.followHop) path hpath hstart
    have hstop : stop.collection = reached.collection := hreached.collection
    rw [UseWalk.element] at hlater
    simp only [hkeys, Option.bind_eq_bind, Option.bind_some] at hlater
    obtain rfl := Option.some.inj hlater
    refine ⟨hreached.walk.sites, hreached.walk.joins, hreached.walk.keys.append
      (List.forall_mem_singleton.mpr ⟨hreached.stored, ?_⟩)⟩
    intro collection column hlooked hcolumn
    obtain rfl := Option.some.inj hlooked
    obtain rfl := Option.some.inj hcolumn
    exact ⟨type, hstop ▸ htype⟩
  | singleColumnAggregate column function path => exact absurd h throw_ne_ok
  | starCountAggregate path => exact absurd h throw_ne_ok

/-- The compiler accounts for the joins and sort keys of an order. -/
theorem ordering_accounted {orderBy : Option OrderBy} {result : Ordering}
    (h : Compile.ordering context scope orderBy = .ok result) (depth : Nat) {storage : String}
    (hstorage : context.schema.storage? scope.collection = some storage) :
    ∃ walk, UseWalk.order context.relationships context.schema.storage? depth
        ⟨⟨depth, 0, some storage⟩, scope.collection⟩ orderBy = some walk ∧
      walk.Accounted context := by
  have hown : Site.Stored context ⟨⟨depth, 0, some storage⟩, scope.collection⟩ :=
    Site.stored_collection hstorage
  cases orderBy with
  | none => exact ⟨_, rfl, .start hown⟩
  | some orderBy =>
    -- any clause at this depth will do, since only the depth of what is visible is read
    have hstart : Tracks ⟨depth, []⟩ ⟨storage, scope.tableAlias⟩ .empty
        (UseWalk.start ⟨⟨depth, 0, some storage⟩, scope.collection⟩).walk :=
      Tracks.start ⟨depth, []⟩ ⟨storage, scope.tableAlias⟩
    have hstep : ∀ ordering element next walk,
        addElement context scope ordering element = .ok next →
        Tracks ⟨depth, []⟩ ⟨storage, scope.tableAlias⟩ ordering walk.walk ∧
          walk.Accounted context →
        ∃ later, UseWalk.element context.relationships context.schema.storage? depth
            ⟨⟨depth, 0, some storage⟩, scope.collection⟩ walk element = some later ∧
          Tracks ⟨depth, []⟩ ⟨storage, scope.tableAlias⟩ next later.walk ∧
            later.Accounted context :=
      fun _ _ _ _ hnext hseen => addElement_accounted rfl rfl rfl hown hnext hseen.1 hseen.2
    obtain ⟨walk, hwalk, -, haccounted⟩ :=
      foldlM_related hstep orderBy.elements h ⟨hstart, .start hown⟩
    exact ⟨walk, hwalk, haccounted⟩

end Orders

/-! ## Nodes -/

section Parts

variable {context : Context} {own : Site} {conditions : List Use} {order : UseWalk}
  {row : Option (List Use)} {aggregates : Option (Entries Aggregate)} {groups? : Option Grouping}

theorem nodeConditions_accounted {scope : Scope} {parent : Option Parent}
    {filter : Option Expression} {compiled : List Sql.Condition}
    (h : nodeConditions context scope parent filter = .ok compiled) (depth : Nat) {item : Item}
    (hstored : Site.Stored context ⟨item, scope.collection⟩) :
    ∃ uses, optionalUses context.relationships context.schema.storage? depth
        ⟨item, scope.collection⟩ filter = some uses ∧ AllAccounted context uses := by
  cases filter with
  | none => exact ⟨[], rfl, .nil⟩
  | some filter =>
    rw [nodeConditions_some] at h
    obtain ⟨condition, hfilter, -⟩ := bind_eq_ok.mp h
    exact predicate_accounted context scope filter hfilter depth item hstored

theorem dimensionUses_accounted (hown : own.Stored context) {tableAlias : String}
    {dimensions : List Dimension} {values : List Sql.Expr}
    (h : dimensions.mapM (dimension context ⟨own.collection, tableAlias⟩) = .ok values) :
    AllAccounted context (dimensionUses own dimensions) := by
  induction dimensions generalizing values with
  | nil => exact .nil
  | cons entry dimensions ih =>
    obtain ⟨value, hvalue, others, hothers, -⟩ := mapM_cons_eq_ok.mp h
    obtain ⟨name, rfl, type, htype, -⟩ := dimension_eq_ok.mp hvalue
    exact List.forall_mem_cons.mpr ⟨hown.checked rfl htype, ih hothers⟩

/-- The uses of a node are accounted for if those of its parts are. -/
theorem partUses_accounted (hown : own.Stored context)
    (hconditions : AllAccounted context conditions) (horder : order.Accounted context)
    (hrow : ∀ uses, row = some uses → AllAccounted context uses)
    (hdimensions : ∀ grouping, groups? = some grouping →
      AllAccounted context (dimensionUses own grouping.dimensions)) :
    AllAccounted context (partUses own conditions order row aggregates groups?).all := by
  have hrows : AllAccounted context (order.joins ++ conditions ++ order.keys) :=
    (horder.joins.append hconditions).append horder.keys
  intro use huse
  obtain ⟨uses, hpart, huse⟩ := List.mem_flatten.mp huse
  simp only [partUses, List.mem_filterMap, List.mem_cons, List.not_mem_nil, or_false, id_eq]
    at hpart
  refine (show AllAccounted context uses from ?_) use huse
  obtain ⟨part, rfl | rfl | rfl, hpart⟩ := hpart
  · obtain ⟨fields, hfields, rfl⟩ := Option.map_eq_some_iff.mp hpart
    exact ((hrow fields hfields).append horder.keys).append hrows
  · obtain ⟨entries, -, rfl⟩ := Option.map_eq_some_iff.mp hpart
    split
    · exact .nil
    · exact (argumentUses_accounted hown.derived entries).append
        (List.forall_mem_cons.mpr ⟨hown.allColumns, hrows⟩)
  · obtain ⟨grouping, hgrouping, rfl⟩ := Option.map_eq_some_iff.mp hpart
    have hvalues := hdimensions grouping hgrouping
    exact ((hvalues.append (argumentUses_accounted hown grouping.aggregates)).append
      hconditions).append hvalues

end Parts

section Nodes

variable (context : Context)

mutual

/-- The compiler accounts for the uses of a node that it compiles, and of the nodes inside it. -/
theorem node_accounted : (collection : String) → (path : AliasPath) → (parent : Option Parent) →
    (query : Query) → {result : Node} → node context collection path parent query = .ok result →
    (depth : Nat) → (known : Option (Relationship × Site)) →
    (∀ pair, known = some pair → pair.2.Stored context) →
      ∃ uses, nodeUses context.relationships context.schema.storage? depth collection known query =
          some uses ∧ AllAccounted context uses.all
  | collection, path, parent, ⟨fields, aggregates, limit, offset, orderBy, filter, groups?⟩, _, h,
      depth, known, hknown => by
    obtain ⟨-, storage, hstorage, conditions, hconditions, order, horder, row, hrow, -, -, grouped,
      hgroups, -⟩ := node_eq_ok.mp h
    have hown : Site.Stored context ⟨⟨depth, 0, some storage⟩, collection⟩ :=
      Site.stored_collection hstorage
    obtain ⟨filtered, hfiltered, hfilter⟩ := nodeConditions_accounted hconditions (depth + 1) hown
    obtain ⟨walk, hwalk, hkeys⟩ := ordering_accounted horder depth hstorage
    obtain ⟨row, hrow, hfields⟩ := rowObject_accounted ⟨collection, path.tableAlias⟩ path fields
      hrow (depth + 1) ⟨depth, 0, some storage⟩ hown
    dsimp only at hfiltered hwalk hrow
    rw [nodeUses]
    simp only [hstorage, hfiltered, hwalk, hrow, Option.bind_eq_bind, Option.bind_some]
    refine ⟨_, rfl, partUses_accounted hown ?conditions hkeys hfields ?dimensions⟩
    case conditions => exact (parentUses_accounted hown hknown).append hfilter
    case dimensions =>
      intro grouping hgrouping
      obtain ⟨hnone, -⟩ | ⟨found, dimensions, outputs, hfound, hdimensions, -⟩ :=
        groupsPart_eq_ok.mp hgroups
      · rw [hnone] at hgrouping
        cases hgrouping
      · obtain rfl := Option.some.inj (hgrouping.symm.trans hfound)
        exact dimensionUses_accounted hown hdimensions

theorem rowObject_accounted : (scope : Scope) → (path : AliasPath) →
    (fields : Option (List (String × Field))) → {row : Option Sql.Expr} →
    rowObject context scope path fields = .ok row → (depth : Nat) → (item : Item) →
    Site.Stored context ⟨item, scope.collection⟩ →
      ∃ uses, rowUses context.relationships context.schema.storage? depth ⟨item, scope.collection⟩
          fields = some uses ∧ ∀ list, uses = some list → AllAccounted context list
  | scope, path, none, _, _, depth, item, _ => ⟨none, rfl, nofun⟩
  | scope, path, some fields, _, h, depth, item, hown => by
    obtain ⟨members, hmembers, -⟩ := rowObject_some_eq_ok.mp h
    obtain ⟨uses, huses, haccounted⟩ :=
      fieldMembers_accounted scope path fields hmembers depth item hown
    rw [rowUses, huses]
    refine ⟨some uses, rfl, fun list hlist => ?_⟩
    obtain rfl := Option.some.inj hlist
    exact haccounted

theorem fieldMembers_accounted : (scope : Scope) → (path : AliasPath) →
    (fields : List (String × Field)) → {members : List (String × Sql.Expr)} →
    fieldMembers context scope path fields = .ok members → (depth : Nat) → (item : Item) →
    Site.Stored context ⟨item, scope.collection⟩ →
      ∃ uses, fieldsUses context.relationships context.schema.storage? depth
          ⟨item, scope.collection⟩ fields = some uses ∧ AllAccounted context uses
  | scope, path, [], _, _, depth, item, _ => ⟨[], rfl, .nil⟩
  | scope, path, (name, field) :: fields, _, h, depth, item, hown => by
    obtain ⟨value, hvalue, members, hmembers, -⟩ := fieldMembers_cons_eq_ok.mp h
    obtain ⟨first, hfirst, haccounted⟩ :=
      fieldExpr_accounted scope path field hvalue depth item hown
    obtain ⟨others, hothers, hrest⟩ :=
      fieldMembers_accounted scope path fields hmembers depth item hown
    rw [fieldsUses, hfirst, hothers]
    exact ⟨_, rfl, haccounted.append hrest⟩

theorem fieldExpr_accounted : (scope : Scope) → (path : AliasPath) → (field : Field) →
    {value : Sql.Expr} → fieldExpr context scope path field = .ok value → (depth : Nat) →
    (item : Item) → Site.Stored context ⟨item, scope.collection⟩ →
      ∃ uses, fieldUses context.relationships context.schema.storage? depth
          ⟨item, scope.collection⟩ field = some uses ∧ AllAccounted context uses
  | scope, path, .column name, _, h, depth, item, hown => by
    obtain ⟨type, htype, -⟩ := fieldExpr_column_eq_ok.mp h
    exact ⟨_, rfl, List.forall_mem_singleton.mpr (hown.checked rfl htype)⟩
  | scope, path, .relationship name query, _, h, depth, item, hown => by
    obtain ⟨relationship, hrelationship, child, hchild, -⟩ := fieldExpr_relationship_eq_ok.mp h
    obtain ⟨uses, huses, haccounted⟩ := node_accounted relationship.target
      (path.child relationship.target) _ query hchild depth
      (some (relationship, ⟨item, scope.collection⟩)) fun pair hpair =>
        Option.some.inj hpair ▸ hown
    rw [fieldUses, hrelationship]
    simp only [huses, Option.bind_eq_bind, Option.bind_some]
    exact ⟨_, rfl, haccounted⟩

end

end Nodes

end NestedSql.Compile
