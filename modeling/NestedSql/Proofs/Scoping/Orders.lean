import NestedSql.Proofs.Scoping.Filters

/-!
# References of orders

A join along an order is known by what its path spells: the names of the collections behind the
alias of the node. Of several paths that spell the same, the first makes the join and the others
read it. The references of joins and sort keys are given by the items that are known so far under
what they spell, and the joins and keys that an order is compiled to have these references.
-/

namespace NestedSql.Compile

open Sql (Clause Item Join Reference SortKey Table Visible fromClause joinReferences referencesAll)

/-! ## References that are meant -/

/-- A stop on a path: what the path spells up to here, and the item it reads. -/
structure Stop where
  spelled : String
  item : Item

/-- The items of a clause by what is spelled behind the alias of its table, the references of the
joins, and the references of the sort keys. -/
structure OrderWalk where
  items : Entries Item
  joins : List Reference
  keys : List Reference

namespace OrderWalk

/-- Before the first hop: the table, behind whose alias nothing is spelled. -/
def start (own : Item) : OrderWalk := ⟨[("", own)], [], []⟩

/-- One hop, with so many clauses around the clause of the joins. -/
def hop (context : Context) (depth : Nat) (state : Stop × OrderWalk) (element : PathElement) :
    Option (Stop × OrderWalk) := do
  let (stop, walk) := state
  let relationship ← Entries.get? element.relationship context.relationships
  let spelled := stop.spelled ++ "_" ++ relationship.target
  match Entries.get? spelled walk.items with
  | some item => return (⟨spelled, item⟩, walk)
  | none =>
    let storage ← context.schema.storage? relationship.target
    let item : Item := ⟨depth, walk.items.length, some storage⟩
    let references ← optionalReferences context (depth + 1) item element.predicate
    return (⟨spelled, item⟩, { walk with
      items := walk.items ++ [(spelled, item)]
      joins := walk.joins ++ (mappingReferences relationship stop.item item ++ references) })

/-- One sort key. -/
def element (context : Context) (depth : Nat) (own : Item) (walk : OrderWalk)
    (element : OrderByElement) : Option OrderWalk :=
  match element.target with
  | .column name path => do
    let (stop, walk) ← path.foldlM (hop context depth) (⟨"", own⟩, walk)
    return { walk with keys := walk.keys ++ [⟨stop.item, some name⟩] }
  | _ => none

/-- The joins and keys of an order over an item. -/
def order (context : Context) (depth : Nat) (own : Item) (orderBy : Option OrderBy) :
    Option OrderWalk :=
  match orderBy with
  | none => some (start own)
  | some orderBy => orderBy.elements.foldlM (element context depth own) (start own)

end OrderWalk

/-! ## Clauses that grow -/

theorem names_items (depth : Nat) (clause : Clause) :
    Entries.names (clause.items depth) = Entries.names clause := by
  apply List.ext_getElem
  · simp [Entries.names, Clause.items]
  · intro i _ _
    simp [Entries.names, Clause.items]

theorem names_fromClause (table : Table) (joins : List Join) :
    Entries.names (fromClause table joins) =
      table.tableAlias :: joins.map fun join => join.table.tableAlias := by
  rw [fromClause, Entries.names, List.map_cons, List.map_map]
  rfl

theorem items_concat (depth : Nat) (clause : Clause) (entry : String × Option String) :
    Clause.items depth (clause ++ [entry]) =
      clause.items depth ++ [(entry.1, ⟨depth, clause.length, entry.2⟩)] :=
  List.mapIdx_concat

theorem fromClause_concat (table : Table) (joins : List Join) (join : Join) :
    fromClause table (joins ++ [join]) = fromClause table joins ++ [join.entry] := by
  rw [fromClause, fromClause, List.map_append, List.cons_append]
  rfl

/-- An alias that is known stays known, under the same item, when joins are added. -/
theorem get?_items_of_prefix {depth : Nat} {table : Table} {joins more : List Join}
    (hgrown : joins <+: more) {tableAlias : String} {item : Item}
    (h : Entries.get? tableAlias ((fromClause table joins).items depth) = some item) :
    Entries.get? tableAlias ((fromClause table more).items depth) = some item := by
  obtain ⟨later, rfl⟩ := hgrown
  have hclause : fromClause table (joins ++ later) =
      fromClause table joins ++ later.map Join.entry := by
    rw [fromClause, fromClause, List.map_append, List.cons_append]
  rw [hclause, Clause.items, List.mapIdx_append, Entries.get?_append]
  rw [Clause.items] at h
  rw [h]
  rfl

theorem item?_fromClause {visible : Visible} {table : Table} {joins : List Join}
    {tableAlias : String} {item : Item}
    (h : Entries.get? tableAlias ((fromClause table joins).items visible.depth) = some item) :
    (visible.enter (fromClause table joins)).item? tableAlias = some item := by
  rw [Visible.item?, Visible.enter, Entries.get?_append, h]
  rfl

theorem get?_items_self (depth : Nat) (table : Table) (joins : List Join) :
    Entries.get? table.tableAlias ((fromClause table joins).items depth) =
      some ⟨depth, 0, some table.storage⟩ := by
  simp [fromClause, Clause.items, Sql.Table.entry, Entries.get?]

theorem joinReferences_concat (visible : Visible) (before : Clause) (joins : List Join)
    (join : Join) :
    joinReferences visible before (joins ++ [join]) =
      joinReferences visible before joins ++
        referencesAll (visible.enter (before ++ joins.map Join.entry ++ [join.entry]))
          join.conditions := by
  induction joins generalizing before with
  | nil => simp [joinReferences]
  | cons first joins ih =>
    rw [List.cons_append, joinReferences, ih, joinReferences]
    simp only [List.map_cons, List.append_assoc, List.cons_append, List.nil_append]

theorem get?_spelled (base spelled : String) (items : Entries Item) :
    Entries.get? (base ++ spelled) (items.map fun entry => (base ++ entry.1, entry.2)) =
      Entries.get? spelled items := by
  induction items with
  | nil => rfl
  | cons entry items ih =>
    by_cases h : entry.1 = spelled
    · simp [Entries.get?, h]
    · have hne : base ++ entry.1 ≠ base ++ spelled := by
        intro heq
        exact h ((String.append_right_inj base).mp heq)
      simp [Entries.get?, h, hne, ih]

/-! ## The order and its references in step -/

/-- The joins and keys so far have the references of the walk so far, and every item of the walk is
found under the alias of the table and what is spelled behind it. -/
structure Tracks (visible : Visible) (table : Table) (ordering : Ordering) (walk : OrderWalk) :
    Prop where
  items : (fromClause table ordering.joins).items visible.depth =
    walk.items.map fun entry => (table.tableAlias ++ entry.1, entry.2)
  distinct : Entries.Distinct walk.items
  joins : joinReferences visible [table.entry] ordering.joins = walk.joins.map some
  keys : ∀ more, ordering.joins <+: more →
    ordering.keys.flatMap (SortKey.references (visible.enter (fromClause table more))) =
      walk.keys.map some

/-- The scope is spelled behind the alias of the table, and its item is known. -/
structure StandsAt (table : Table) (scope : Scope) (stop : Stop) (walk : OrderWalk) : Prop where
  spelled : scope.tableAlias = table.tableAlias ++ stop.spelled
  known : Entries.get? stop.spelled walk.items = some stop.item

/-- A compilation on a path and a walk on it. -/
def InStep (visible : Visible) (table : Table) (state : Scope × Ordering)
    (seen : Stop × OrderWalk) : Prop :=
  Tracks visible table state.2 seen.2 ∧ StandsAt table state.1 seen.1 seen.2

section Steps

variable {context : Context} {visible : Visible} {table : Table} {ordering : Ordering}
  {walk : OrderWalk} {scope : Scope} {stop : Stop}

theorem Tracks.start (visible : Visible) (table : Table) :
    Tracks visible table .empty (.start ⟨visible.depth, 0, some table.storage⟩) where
  items := by simp [Ordering.empty, OrderWalk.start, fromClause, Clause.items, Sql.Table.entry]
  distinct := by simp [OrderWalk.start, Entries.Distinct]
  joins := rfl
  keys := fun _ _ => rfl

theorem Tracks.get?_spelled (h : Tracks visible table ordering walk) (spelled : String) :
    Entries.get? (table.tableAlias ++ spelled)
        ((fromClause table ordering.joins).items visible.depth) =
      Entries.get? spelled walk.items := by
  rw [h.items, Compile.get?_spelled]

theorem Tracks.length_items (h : Tracks visible table ordering walk) :
    (fromClause table ordering.joins).length = walk.items.length := by
  have hl := congrArg List.length h.items
  rwa [Clause.items, List.length_mapIdx, List.length_map] at hl

theorem Tracks.item?_stop (h : Tracks visible table ordering walk)
    (hs : StandsAt table scope stop walk) {more : List Join} (hmore : ordering.joins <+: more) :
    (visible.enter (fromClause table more)).item? scope.tableAlias = some stop.item := by
  apply item?_fromClause
  apply get?_items_of_prefix hmore
  rw [hs.spelled, h.get?_spelled, hs.known]

/-- An alias behind that of the table is joined exactly if it is spelled by a path before. -/
theorem Tracks.isJoined_iff (h : Tracks visible table ordering walk) {spelled : String}
    (hne : spelled ≠ "") :
    ordering.isJoined (table.tableAlias ++ spelled) = true ↔
      Entries.get? spelled walk.items ≠ none := by
  have hself : table.tableAlias ++ spelled ≠ table.tableAlias := by
    intro heq
    have hl := congrArg String.length heq
    rw [String.length_append] at hl
    exact hne (String.length_eq_zero_iff.mp (by omega))
  rw [← h.get?_spelled, Ne, Entries.get?_eq_none, Classical.not_not, names_items,
    names_fromClause, List.mem_cons, or_iff_right hself, Ordering.isJoined, List.any_eq_true,
    List.mem_map]
  simp only [beq_iff_eq]

theorem orOne_references (conditions : List Sql.Condition) :
    referencesAll visible (orOne conditions) = referencesAll visible conditions := by
  cases conditions <;> rfl

theorem hopConditions_references {source target : Scope} {relationship : Relationship}
    {filter : Option Expression} {conditions : List Sql.Condition}
    (h : hopConditions context source target relationship filter = .ok conditions)
    {sourceItem targetItem : Item} (hsource : visible.item? source.tableAlias = some sourceItem)
    (htarget : visible.item? target.tableAlias = some targetItem) :
    ∃ references, optionalReferences context visible.depth targetItem filter = some references ∧
      referencesAll visible conditions =
        (mappingReferences relationship sourceItem targetItem ++ references).map some := by
  have hmapping := joinConditions_references hsource htarget relationship
  cases filter with
  | none =>
    obtain rfl := hopConditions_none_eq_ok.mp h
    refine ⟨[], rfl, ?_⟩
    rw [orOne_references, hmapping, List.append_nil]
  | some filter =>
    obtain ⟨condition, hfilter, rfl⟩ := hopConditions_some_eq_ok.mp h
    obtain ⟨references, hreferences, hfound⟩ :=
      predicate_references context target filter hfilter visible targetItem htarget
    refine ⟨references, hreferences, ?_⟩
    rw [orOne_references, referencesAll_append, hmapping, referencesAll,
      Sql.Condition.references, hfound, List.map_append]
    exact congrArg _ (List.append_nil _)

theorem StandsAt.hop_spelled (hs : StandsAt table scope stop walk) (target : String) :
    (scope.hop target).tableAlias = table.tableAlias ++ (stop.spelled ++ "_" ++ target) := by
  rw [Scope.hop, hs.spelled]
  simp only [String.append_assoc]

/-- A hop whose path was spelled before reads the item that is known. -/
theorem StandsAt.hop_known (hs : StandsAt table scope stop walk) {relationship : Relationship}
    {item : Item}
    (hitem : Entries.get? (stop.spelled ++ "_" ++ relationship.target) walk.items = some item) :
    StandsAt table (scope.hop relationship.target)
      ⟨stop.spelled ++ "_" ++ relationship.target, item⟩ walk where
  spelled := hs.hop_spelled relationship.target
  known := hitem

/-- A hop whose path is new adds an item and the references of its join. -/
theorem Tracks.hop_new (h : Tracks visible table ordering walk)
    (hs : StandsAt table scope stop walk) {relationship : Relationship} (storage : String)
    {filter : Option Expression} {conditions : List Sql.Condition}
    (hnew : Entries.get? (stop.spelled ++ "_" ++ relationship.target) walk.items = none)
    (hconditions : hopConditions context scope (scope.hop relationship.target) relationship filter =
      .ok conditions) :
    ∃ references,
      optionalReferences context (visible.depth + 1)
        ⟨visible.depth, walk.items.length, some storage⟩ filter = some references ∧
      Tracks visible table
        (ordering.addJoin ⟨⟨storage, (scope.hop relationship.target).tableAlias⟩, conditions⟩)
        { walk with
          items := walk.items ++ [(stop.spelled ++ "_" ++ relationship.target,
            ⟨visible.depth, walk.items.length, some storage⟩)]
          joins := walk.joins ++ (mappingReferences relationship stop.item
            ⟨visible.depth, walk.items.length, some storage⟩ ++ references) } := by
  have hspelled := hs.hop_spelled relationship.target
  generalize hjoin : (⟨⟨storage, (scope.hop relationship.target).tableAlias⟩, conditions⟩ : Join) =
    join
  have hentry : join.entry =
      (table.tableAlias ++ (stop.spelled ++ "_" ++ relationship.target), some storage) := by
    rw [← hjoin, Join.entry, Sql.Table.entry, hspelled]
  have hitems : (fromClause table (ordering.joins ++ [join])).items visible.depth =
      (walk.items ++ [(stop.spelled ++ "_" ++ relationship.target,
        (⟨visible.depth, walk.items.length, some storage⟩ : Item))]).map
          fun entry => (table.tableAlias ++ entry.1, entry.2) := by
    rw [fromClause_concat, items_concat, h.items, h.length_items, hentry, List.map_append]
    rfl
  have hgrown : ordering.joins <+: ordering.joins ++ [join] := List.prefix_append _ _
  have hsource := h.item?_stop hs hgrown
  have htarget : (visible.enter (fromClause table (ordering.joins ++ [join]))).item?
      (scope.hop relationship.target).tableAlias =
        some ⟨visible.depth, walk.items.length, some storage⟩ := by
    apply item?_fromClause
    rw [hitems, hspelled, Compile.get?_spelled, Entries.get?_append, hnew]
    simp [Entries.get?]
  obtain ⟨references, hreferences, hfound⟩ :=
    hopConditions_references hconditions hsource htarget
  refine ⟨references, hreferences, hitems, ?_, ?_, ?_⟩
  · have hfresh := Entries.get?_eq_none.mp hnew
    rw [Entries.Distinct, Entries.names, List.map_append, List.nodup_append]
    refine ⟨h.distinct, by simp, ?_⟩
    rintro name hname other hother rfl
    obtain rfl := List.mem_singleton.mp hother
    exact hfresh hname
  · have hclause : [table.entry] ++ ordering.joins.map Join.entry ++ [join.entry] =
        fromClause table (ordering.joins ++ [join]) := (fromClause_concat ..).symm
    have hjoined : join.conditions = conditions := by rw [← hjoin]
    rw [Ordering.addJoin, joinReferences_concat, hclause, hjoined, hfound, h.joins,
      ← List.map_append]
  · intro more hmore
    exact h.keys more (hgrown.trans hmore)

theorem StandsAt.hop_new (hs : StandsAt table scope stop walk) {relationship : Relationship}
    (hnew : Entries.get? (stop.spelled ++ "_" ++ relationship.target) walk.items = none)
    (item : Item) (joins : List Reference) :
    StandsAt table (scope.hop relationship.target)
      ⟨stop.spelled ++ "_" ++ relationship.target, item⟩
      { walk with
        items := walk.items ++ [(stop.spelled ++ "_" ++ relationship.target, item)]
        joins := joins } where
  spelled := hs.hop_spelled relationship.target
  known := by
    rw [Entries.get?_append, hnew]
    simp [Entries.get?]

/-- The alias of a hop is joined exactly if its spelling is known. -/
theorem InStep.isJoined_iff (h : InStep visible table (scope, ordering) (stop, walk))
    (target : String) : ordering.isJoined (scope.hop target).tableAlias = true ↔
      Entries.get? (stop.spelled ++ "_" ++ target) walk.items ≠ none := by
  have hne : stop.spelled ++ "_" ++ target ≠ "" := by
    intro heq
    have hl := congrArg String.length heq
    simp at hl
  have hstands : StandsAt table scope stop walk := h.2
  rw [hstands.hop_spelled]
  exact h.1.isJoined_iff hne

/-- A compiled hop and the walk stay in step. -/
theorem followHop_tracks {element : PathElement} {state next : Scope × Ordering}
    {seen : Stop × OrderWalk} (h : followHop context state element = .ok next)
    (ht : InStep visible table state seen) :
    ∃ later, OrderWalk.hop context visible.depth seen element = some later ∧
      InStep visible table next later := by
  obtain ⟨scope, ordering⟩ := state
  obtain ⟨stop, walk⟩ := seen
  have htracks : Tracks visible table ordering walk := ht.1
  have hstands : StandsAt table scope stop walk := ht.2
  obtain ⟨relationship, hrelationship, h⟩ := followHop_eq_ok.mp h
  have hjoined := ht.isJoined_iff relationship.target
  rw [OrderWalk.hop, hrelationship]
  simp only [Option.bind_eq_bind, Option.bind_some]
  by_cases hj : ordering.isJoined (scope.hop relationship.target).tableAlias = true
  · rw [if_pos hj] at h
    obtain rfl := h
    obtain ⟨item, hitem⟩ := Option.ne_none_iff_exists'.mp (hjoined.mp hj)
    rw [hitem]
    exact ⟨_, rfl, htracks, hstands.hop_known hitem⟩
  · rw [if_neg hj] at h
    have hnew := Classical.not_not.mp (mt hjoined.mpr hj)
    obtain ⟨storage, hstorage, conditions, hconditions, rfl⟩ := h
    obtain ⟨references, hreferences, hnext⟩ := htracks.hop_new hstands storage hnew
      hconditions
    rw [hnew]
    simp only [hstorage, hreferences, Option.bind_some]
    exact ⟨_, rfl, hnext, hstands.hop_new hnew _ _⟩

theorem Tracks.known_start (h : Tracks visible table ordering walk) :
    Entries.get? "" walk.items = some ⟨visible.depth, 0, some table.storage⟩ := by
  rw [← h.get?_spelled, String.append_empty, get?_items_self]

/-- A sort key reads the item where its path ends, whatever is joined later. -/
theorem Tracks.addKey (h : Tracks visible table ordering walk)
    (hs : StandsAt table scope stop walk) (name : String) (strategy : Strategy)
    (direction : Option OrderDirection) :
    Tracks visible table (ordering.addKey ⟨.column (scope.column name), strategy, direction⟩)
      { walk with keys := walk.keys ++ [⟨stop.item, some name⟩] } where
  items := h.items
  distinct := h.distinct
  joins := h.joins
  keys := by
    intro more hmore
    have hfound := Visible.column_of_item? (h.item?_stop hs hmore) name
    rw [Ordering.addKey, List.flatMap_append, h.keys more hmore, List.map_append,
      List.flatMap_singleton]
    exact congrArg (fun found => walk.keys.map some ++ [found]) hfound

/-- A compiled sort key and the walk stay in step. -/
theorem addElement_tracks (hscope : scope.tableAlias = table.tableAlias)
    {element : OrderByElement} {next : Ordering}
    (h : addElement context scope ordering element = .ok next)
    (ht : Tracks visible table ordering walk) :
    ∃ later, OrderWalk.element context visible.depth ⟨visible.depth, 0, some table.storage⟩ walk
        element = some later ∧ Tracks visible table next later := by
  obtain ⟨direction, target⟩ := element
  cases target with
  | column name path =>
    obtain ⟨⟨target, joined⟩, hpath, type, -, strategy, -, rfl⟩ := addElement_column_eq_ok.mp h
    have hstart : InStep visible table (scope, ordering)
        (⟨"", ⟨visible.depth, 0, some table.storage⟩⟩, walk) :=
      ⟨ht, by rw [hscope, String.append_empty], ht.known_start⟩
    have hstep : ∀ state element next seen, followHop context state element = .ok next →
        InStep visible table state seen →
          ∃ later, OrderWalk.hop context visible.depth seen element = some later ∧
            InStep visible table next later :=
      fun _ _ _ _ => followHop_tracks
    obtain ⟨⟨stop, later⟩, hwalk, htracks, hstands⟩ :=
      foldlM_related hstep path hpath hstart
    refine ⟨_, ?_, htracks.addKey hstands name strategy (some direction)⟩
    simp only [OrderWalk.element, hwalk]
    rfl
  | singleColumnAggregate column function path => exact absurd h throw_ne_ok
  | starCountAggregate path => exact absurd h throw_ne_ok

end Steps

/-- The joins and sort keys of an order have the references that are meant, wherever the clause of
the joins stands. -/
theorem ordering_tracks {context : Context} {scope : Scope} {orderBy : Option OrderBy}
    {result : Ordering} (h : ordering context scope orderBy = .ok result) (visible : Visible)
    (storage : String) :
    ∃ walk, OrderWalk.order context visible.depth ⟨visible.depth, 0, some storage⟩ orderBy =
        some walk ∧ Tracks visible ⟨storage, scope.tableAlias⟩ result walk := by
  have hstart := Tracks.start visible ⟨storage, scope.tableAlias⟩
  cases orderBy with
  | none =>
    obtain rfl := pure_eq_ok.mp h
    exact ⟨_, rfl, hstart⟩
  | some orderBy =>
    exact foldlM_related (fun _ _ _ _ hstep => addElement_tracks rfl hstep) orderBy.elements h
      hstart

end NestedSql.Compile
