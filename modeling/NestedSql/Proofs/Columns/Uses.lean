import NestedSql.Proofs.Scoping.Nodes

/-!
# Uses of columns

A reference of a statement has an item, and the item is the table of a collection. Which collection
that is, and where the request names the column, is followed here beside the references: each use
has its reference, so the uses of a node have the references of the node, one for one. Nothing of
this depends on what columns a schema declares.
-/

namespace NestedSql.Compile

open Sql (Item Reference)

/-! ## Uses -/

/-- Where a request names a column. The column of a sort key is one of the collection where its path
ends. Aggregates over a page also read all columns of the rows. -/
inductive Place where
  | field
  | filter
  | dimension
  | sortKey (collection : String)
  | mapping
  | argument
  | rows
deriving DecidableEq, Repr

/-- A reference with its place and the collection that its item has the rows of. -/
structure Use where
  place : Place
  collection : String
  reference : Reference
deriving DecidableEq, Repr

/-- The collection in which the compiler looks up the column. -/
def Use.lookedUp? (use : Use) : Option String :=
  match use.place with
  | .field | .filter | .dimension => some use.collection
  | .sortKey collection => some collection
  | .mapping | .argument | .rows => none

/-- The collection that the item has the rows of declares the column. -/
def Use.Declared (context : Context) (use : Use) : Prop :=
  ∀ column, use.reference.column = some column →
    ∃ type, context.columnType? use.collection column = some type

/-- An item and its collection. -/
structure Site where
  item : Item
  collection : String
deriving DecidableEq, Repr

def Site.use (site : Site) (place : Place) (column : String) : Use :=
  ⟨place, site.collection, ⟨site.item, some column⟩⟩

def Site.allColumns (site : Site) : Use := ⟨.rows, site.collection, ⟨site.item, none⟩⟩

/-- The derived table around the rows of a site. -/
def Site.derived (site : Site) : Site := ⟨{ site.item with storage := none }, site.collection⟩

/-- The references of uses. -/
def useReferences (uses : List Use) : List Reference := uses.map Use.reference

theorem useReferences_append (first second : List Use) :
    useReferences (first ++ second) = useReferences first ++ useReferences second :=
  List.map_append

/-! ## Filters -/

/-- Both sides of a mapping between two sites. -/
def mappingUses (relationship : Relationship) (parent child : Site) : List Use :=
  relationship.columnMapping.flatMap fun pair =>
    [parent.use .mapping pair.1, child.use .mapping pair.2]

theorem mappingUses_references (relationship : Relationship) (parent child : Site) :
    useReferences (mappingUses relationship parent child) =
      mappingReferences relationship parent.item child.item := by
  rw [useReferences, mappingUses, mappingReferences, List.map_flatMap]
  rfl

section Definitions

variable (relationships : Entries Relationship) (storage? : String → Option String)

mutual

/-- The uses of a filter over a site, with so many clauses around the filter. -/
def filterUses (depth : Nat) (site : Site) : Expression → Option (List Use)
  | .and parts | .or parts => partsUses depth site parts
  | .not part => filterUses depth site part
  | .unary target _ | .binary target _ _ => do
    return [site.use .filter (← namedColumn? target)]
  | .existsIn (.unrelated _) _ => none
  | .existsIn (.related name) filter => do
    let relationship ← Entries.get? name relationships
    let storage ← storage? relationship.target
    let inner : Site := ⟨⟨depth, 0, some storage⟩, relationship.target⟩
    let uses ← optionalUses (depth + 1) inner filter
    return uses ++ mappingUses relationship site inner

def optionalUses (depth : Nat) (site : Site) : Option Expression → Option (List Use)
  | none => some []
  | some filter => filterUses depth site filter

def partsUses (depth : Nat) (site : Site) : List Expression → Option (List Use)
  | [] => some []
  | part :: parts => do
    let uses ← filterUses depth site part
    return uses ++ (← partsUses depth site parts)

end

/-! ## Orders -/

/-- A stop on a path: what the path spells, the site under that spelling, and the collection where
the path is. The two collections differ if another path spelled the same before. -/
structure UseStop where
  spelled : String
  site : Site
  collection : String

/-- The sites of a clause by what is spelled behind the alias of its table, the uses of the joins
and those of the sort keys. -/
structure UseWalk where
  sites : Entries Site
  joins : List Use
  keys : List Use

def UseStop.stop (stop : UseStop) : Stop := ⟨stop.spelled, stop.site.item⟩

def UseWalk.walk (walk : UseWalk) : OrderWalk where
  items := walk.sites.map fun entry => (entry.1, entry.2.item)
  joins := useReferences walk.joins
  keys := useReferences walk.keys

namespace UseWalk

/-- Before the first hop. -/
def start (own : Site) : UseWalk := ⟨[("", own)], [], []⟩

/-- One hop, with so many clauses around the clause of the joins. -/
def hop (depth : Nat) (state : UseStop × UseWalk) (element : PathElement) :
    Option (UseStop × UseWalk) := do
  let (stop, walk) := state
  let relationship ← Entries.get? element.relationship relationships
  let spelled := stop.spelled ++ "_" ++ relationship.target
  match Entries.get? spelled walk.sites with
  | some site => return (⟨spelled, site, relationship.target⟩, walk)
  | none =>
    let storage ← storage? relationship.target
    let site : Site := ⟨⟨depth, walk.sites.length, some storage⟩, relationship.target⟩
    let uses ← optionalUses relationships storage? (depth + 1) site element.predicate
    return (⟨spelled, site, relationship.target⟩, { walk with
      sites := walk.sites ++ [(spelled, site)]
      joins := walk.joins ++ (mappingUses relationship stop.site site ++ uses) })

/-- One sort key. -/
def element (depth : Nat) (own : Site) (walk : UseWalk) (element : OrderByElement) :
    Option UseWalk :=
  match element.target with
  | .column name path => do
    let (stop, walk) ← path.foldlM (hop relationships storage? depth)
      (⟨"", own, own.collection⟩, walk)
    return { walk with keys := walk.keys ++ [stop.site.use (.sortKey stop.collection) name] }
  | _ => none

/-- The joins and keys of an order over a site. -/
def order (depth : Nat) (own : Site) (orderBy : Option OrderBy) : Option UseWalk :=
  match orderBy with
  | none => some (start own)
  | some orderBy =>
    orderBy.elements.foldlM (element relationships storage? depth own) (start own)

end UseWalk

/-! ## Nodes -/

/-- The uses of the parts of a node, for each part that it has. -/
structure NodeUses where
  rows : Option (List Use)
  aggregates : Option (List Use)
  groups : Option (List Use)

def NodeUses.all (uses : NodeUses) : List Use :=
  ([uses.rows, uses.aggregates, uses.groups].filterMap id).flatten

def NodeUses.references (uses : NodeUses) : NodeReferences :=
  ⟨uses.rows.map useReferences, uses.aggregates.map useReferences, uses.groups.map useReferences⟩

def argumentUses (site : Site) (aggregates : Entries Aggregate) : List Use :=
  aggregates.flatMap fun entry => match entry.2 with
    | .starCount => []
    | .columnCount column _ | .singleColumn column _ => [site.use .argument column]

def dimensionUses (site : Site) (dimensions : List Dimension) : List Use :=
  dimensions.map fun
    | .column name _ => site.use .dimension name

/-- The uses of the mapping to the parent of a node, if it has one. -/
def parentUses (own : Site) : Option (Relationship × Site) → List Use
  | none => []
  | some (relationship, parent) => mappingUses relationship parent own

/-- The uses of the parts of a node from those of its conditions, its order and its row. -/
def partUses (own : Site) (conditions : List Use) (order : UseWalk) (row : Option (List Use))
    (aggregates : Option (Entries Aggregate)) (groups? : Option Grouping) : NodeUses where
  rows := row.map fun row => row ++ order.keys ++ (order.joins ++ conditions ++ order.keys)
  aggregates := aggregates.map fun entries =>
    if entries.isEmpty then []
    else argumentUses own.derived entries ++
      own.allColumns :: (order.joins ++ conditions ++ order.keys)
  groups := groups?.map fun grouping =>
    dimensionUses own grouping.dimensions ++ argumentUses own grouping.aggregates ++ conditions ++
      dimensionUses own grouping.dimensions

mutual

/-- The uses of a node with so many clauses around it, given the site of its parent. -/
def nodeUses (depth : Nat) (collection : String) (parent : Option (Relationship × Site)) :
    Query → Option NodeUses
  | ⟨fields, aggregates, _, _, orderBy, filter, groups?⟩ => do
    let storage ← storage? collection
    let own : Site := ⟨⟨depth, 0, some storage⟩, collection⟩
    let filtered ← optionalUses relationships storage? (depth + 1) own filter
    let order ← UseWalk.order relationships storage? depth own orderBy
    let row ← rowUses (depth + 1) own fields
    return partUses own (parentUses own parent ++ filtered) order row aggregates groups?

/-- The uses of an output row over a site. -/
def rowUses (depth : Nat) (own : Site) :
    Option (List (String × Field)) → Option (Option (List Use))
  | none => some none
  | some fields => do return some (← fieldsUses depth own fields)

def fieldsUses (depth : Nat) (own : Site) : List (String × Field) → Option (List Use)
  | [] => some []
  | (_, field) :: fields => do
    let uses ← fieldUses depth own field
    return uses ++ (← fieldsUses depth own fields)

/-- A column is read from the site itself, and a nested node has the site as its parent. -/
def fieldUses (depth : Nat) (own : Site) : Field → Option (List Use)
  | .column name => some [own.use .field name]
  | .relationship name query => do
    let relationship ← Entries.get? name relationships
    return (← nodeUses depth relationship.target (some (relationship, own)) query).all

end

end Definitions

/-! ## References of uses -/

section References

variable (context : Context)

mutual

theorem filterUses_references (depth : Nat) (site : Site) : (filter : Expression) →
    (filterUses context.relationships context.schema.storage? depth site filter).map
      useReferences = filterReferences context depth site.item filter
  | .and parts => by
    rw [filterUses, filterReferences]
    exact partsUses_references depth site parts
  | .or parts => by
    rw [filterUses, filterReferences]
    exact partsUses_references depth site parts
  | .not part => by
    rw [filterUses, filterReferences]
    exact filterUses_references depth site part
  | .unary target .isNull => by
    rw [filterUses, filterReferences]
    cases namedColumn? target <;> rfl
  | .binary target operator value => by
    rw [filterUses, filterReferences]
    cases namedColumn? target <;> rfl
  | .existsIn (.unrelated collection) filter => by
    rw [filterUses, filterReferences]
    rfl
  | .existsIn (.related name) filter => by
    rw [filterUses, filterReferences]
    cases Entries.get? name context.relationships with
    | none => rfl
    | some relationship =>
      simp only [Option.bind_eq_bind, Option.bind_some]
      cases context.schema.storage? relationship.target with
      | none => rfl
      | some storage =>
        have h := optionalUses_references (depth + 1)
          ⟨⟨depth, 0, some storage⟩, relationship.target⟩ filter
        simp only [Option.bind_some, ← h]
        cases optionalUses context.relationships context.schema.storage? (depth + 1)
            ⟨⟨depth, 0, some storage⟩, relationship.target⟩ filter with
        | none => rfl
        | some uses =>
          refine congrArg some ?_
          rw [useReferences_append, mappingUses_references]

theorem optionalUses_references (depth : Nat) (site : Site) : (filter : Option Expression) →
    (optionalUses context.relationships context.schema.storage? depth site filter).map
      useReferences = optionalReferences context depth site.item filter
  | none => rfl
  | some filter => by
    rw [optionalUses, optionalReferences]
    exact filterUses_references depth site filter

theorem partsUses_references (depth : Nat) (site : Site) : (parts : List Expression) →
    (partsUses context.relationships context.schema.storage? depth site parts).map
      useReferences = filtersReferences context depth site.item parts
  | [] => rfl
  | part :: parts => by
    rw [partsUses, filtersReferences, ← filterUses_references depth site part,
      ← partsUses_references depth site parts]
    cases filterUses context.relationships context.schema.storage? depth site part with
    | none => rfl
    | some first =>
      cases partsUses context.relationships context.schema.storage? depth site parts with
      | none => rfl
      | some others => exact congrArg some (useReferences_append first others)

end

theorem hop_references (depth : Nat) (stop : UseStop) (walk : UseWalk) (element : PathElement) :
    (UseWalk.hop context.relationships context.schema.storage? depth (stop, walk) element).map
        (fun next => (next.1.stop, next.2.walk)) =
      OrderWalk.hop context depth (stop.stop, walk.walk) element := by
  rw [UseWalk.hop, OrderWalk.hop]
  cases Entries.get? element.relationship context.relationships with
  | none => rfl
  | some relationship =>
    have hsites := Entries.get?_mapped Site.item (stop.spelled ++ "_" ++ relationship.target)
      walk.sites
    simp only [Option.bind_eq_bind, Option.bind_some, UseStop.stop, UseWalk.walk, hsites]
    cases Entries.get? (stop.spelled ++ "_" ++ relationship.target) walk.sites with
    | some site => rfl
    | none =>
      cases context.schema.storage? relationship.target with
      | none => rfl
      | some storage =>
        have h := optionalUses_references context (depth + 1)
          ⟨⟨depth, walk.sites.length, some storage⟩, relationship.target⟩ element.predicate
        simp only [Option.map_none, Option.bind_some, List.length_map, ← h]
        cases optionalUses context.relationships context.schema.storage? (depth + 1)
            ⟨⟨depth, walk.sites.length, some storage⟩, relationship.target⟩ element.predicate with
        | none => rfl
        | some uses =>
          refine congrArg some ?_
          simp only [useReferences_append, mappingUses_references, List.map_append]
          rfl

/-- A fold whose steps commute with a map of states commutes with it. -/
theorem foldlM_mapped {α State Trace : Type} {step : State → α → Option State}
    {trace : Trace → α → Option Trace} (f : State → Trace)
    (h : ∀ state item, (step state item).map f = trace (f state) item) (items : List α) :
    ∀ state, (items.foldlM step state).map f = items.foldlM trace (f state) := by
  induction items with
  | nil => exact fun _ => rfl
  | cons item items ih =>
    intro state
    rw [List.foldlM_cons, List.foldlM_cons, ← h]
    cases step state item with
    | none => rfl
    | some next => exact ih next

theorem element_references (depth : Nat) (own : Site) (walk : UseWalk)
    (element : OrderByElement) :
    (UseWalk.element context.relationships context.schema.storage? depth own walk element).map
        UseWalk.walk = OrderWalk.element context depth own.item walk.walk element := by
  obtain ⟨direction, target⟩ := element
  cases target with
  | column name path =>
    have h := foldlM_mapped (fun next : UseStop × UseWalk => (next.1.stop, next.2.walk))
      (fun state item => hop_references context depth state.1 state.2 item) path
      (⟨"", own, own.collection⟩, walk)
    rw [UseWalk.element, OrderWalk.element]
    dsimp only [UseStop.stop] at h ⊢
    rw [← h]
    cases path.foldlM (UseWalk.hop context.relationships context.schema.storage? depth)
        (⟨"", own, own.collection⟩, walk) with
    | none => rfl
    | some next =>
      refine congrArg some ?_
      simp only [UseWalk.walk, useReferences_append]
      rfl
  | singleColumnAggregate column function path => rfl
  | starCountAggregate path => rfl

theorem order_references (depth : Nat) (own : Site) (orderBy : Option OrderBy) :
    (UseWalk.order context.relationships context.schema.storage? depth own orderBy).map
        UseWalk.walk = OrderWalk.order context depth own.item orderBy := by
  cases orderBy with
  | none => rfl
  | some orderBy =>
    exact foldlM_mapped UseWalk.walk (element_references context depth own) orderBy.elements
      (.start own)

end References

theorem argumentUses_references (site : Site) (aggregates : Entries Aggregate) :
    useReferences (argumentUses site aggregates) = argumentReferences site.item aggregates := by
  rw [useReferences, argumentUses, argumentReferences, List.map_flatMap]
  congr 1
  funext entry
  obtain ⟨name, aggregate⟩ := entry
  cases aggregate <;> rfl

theorem dimensionUses_references (site : Site) (dimensions : List Dimension) :
    useReferences (dimensionUses site dimensions) = dimensionReferences site.item dimensions := by
  rw [useReferences, dimensionUses, dimensionReferences, List.map_map]
  rfl

theorem parentUses_references (own : Site) (parent : Option (Relationship × Site)) :
    useReferences (parentUses own parent) =
      parentReferences own.item (parent.map fun known => (known.1, known.2.item)) := by
  cases parent with
  | none => rfl
  | some known => exact mappingUses_references known.1 known.2 own

theorem partUses_references (own : Site) (conditions : List Use) (order : UseWalk)
    (row : Option (List Use)) (aggregates : Option (Entries Aggregate))
    (groups? : Option Grouping) :
    (partUses own conditions order row aggregates groups?).references =
      partReferences own.item (useReferences conditions) order.walk (row.map useReferences)
        aggregates groups? := by
  rw [NodeUses.references, partUses, partReferences]
  congr 1
  · cases row with
    | none => rfl
    | some row => simp only [Option.map_some, useReferences_append, UseWalk.walk]
  · cases aggregates with
    | none => rfl
    | some entries =>
      cases entries with
      | nil => rfl
      | cons entry entries =>
        simp only [Option.map_some, List.isEmpty_cons, Bool.false_eq_true, if_false,
          useReferences_append, argumentUses_references, UseWalk.walk]
        simp only [useReferences, List.map_cons, List.map_append]
        rfl
  · cases groups? with
    | none => rfl
    | some grouping =>
      simp only [Option.map_some, useReferences_append, argumentUses_references,
        dimensionUses_references]

theorem NodeUses.all_references (uses : NodeUses) :
    useReferences uses.all = uses.references.all := by
  have hparts : [uses.references.rows, uses.references.aggregates, uses.references.groups] =
      [uses.rows, uses.aggregates, uses.groups].map (Option.map useReferences) := rfl
  rw [NodeReferences.all, hparts, filterMap_map_flatten, NodeUses.all, useReferences,
    List.map_flatten, List.flatMap_def]
  rfl

section Nodes

variable (context : Context)

mutual

/-- The references of the uses of a node are the references of the node. -/
theorem nodeUses_references (depth : Nat) (collection : String)
    (parent : Option (Relationship × Site)) : (query : Query) →
    (nodeUses context.relationships context.schema.storage? depth collection parent query).map
      NodeUses.references = nodeReferences context depth collection
        (parent.map fun known => (known.1, known.2.item)) query
  | ⟨fields, aggregates, limit, offset, orderBy, filter, groups?⟩ => by
    rw [nodeUses, nodeReferences]
    cases context.schema.storage? collection with
    | none => rfl
    | some storage =>
      have hfilter := optionalUses_references context (depth + 1)
        ⟨⟨depth, 0, some storage⟩, collection⟩ filter
      have horder := order_references context depth ⟨⟨depth, 0, some storage⟩, collection⟩ orderBy
      have hrow := rowUses_references (depth + 1) ⟨⟨depth, 0, some storage⟩, collection⟩ fields
      dsimp only at hfilter horder hrow
      simp only [Option.bind_eq_bind, Option.bind_some, ← hfilter, ← horder, ← hrow]
      generalize optionalUses context.relationships context.schema.storage? (depth + 1)
        ⟨⟨depth, 0, some storage⟩, collection⟩ filter = filtered?
      generalize UseWalk.order context.relationships context.schema.storage? depth
        ⟨⟨depth, 0, some storage⟩, collection⟩ orderBy = order?
      generalize rowUses context.relationships context.schema.storage? (depth + 1)
        ⟨⟨depth, 0, some storage⟩, collection⟩ fields = row?
      cases filtered? with
      | none => rfl
      | some filtered =>
        cases order? with
        | none => rfl
        | some order =>
          cases row? with
          | none => rfl
          | some row =>
            refine congrArg some ?_
            rw [partUses_references, useReferences_append, parentUses_references]

theorem rowUses_references (depth : Nat) (own : Site) :
    (fields : Option (List (String × Field))) →
    (rowUses context.relationships context.schema.storage? depth own fields).map
      (Option.map useReferences) = rowReferences context depth own.item fields
  | none => rfl
  | some fields => by
    rw [rowUses, rowReferences, ← fieldsUses_references depth own fields]
    cases fieldsUses context.relationships context.schema.storage? depth own fields <;> rfl

theorem fieldsUses_references (depth : Nat) (own : Site) : (fields : List (String × Field)) →
    (fieldsUses context.relationships context.schema.storage? depth own fields).map
      useReferences = fieldsReferences context depth own.item fields
  | [] => rfl
  | (name, field) :: fields => by
    rw [fieldsUses, fieldsReferences, ← fieldUses_references depth own field,
      ← fieldsUses_references depth own fields]
    cases fieldUses context.relationships context.schema.storage? depth own field with
    | none => rfl
    | some first =>
      cases fieldsUses context.relationships context.schema.storage? depth own fields with
      | none => rfl
      | some others => exact congrArg some (useReferences_append first others)

theorem fieldUses_references (depth : Nat) (own : Site) : (field : Field) →
    (fieldUses context.relationships context.schema.storage? depth own field).map
      useReferences = fieldReferences context depth own.item field
  | .column name => rfl
  | .relationship name query => by
    rw [fieldUses, fieldReferences]
    cases Entries.get? name context.relationships with
    | none => rfl
    | some relationship =>
      have h := nodeUses_references depth relationship.target (some (relationship, own)) query
      simp only [Option.bind_eq_bind, Option.bind_some]
      rw [Option.map_some] at h
      rw [← h]
      cases nodeUses context.relationships context.schema.storage? depth relationship.target
          (some (relationship, own)) query with
      | none => rfl
      | some uses => exact congrArg some uses.all_references

end

end Nodes

end NestedSql.Compile
