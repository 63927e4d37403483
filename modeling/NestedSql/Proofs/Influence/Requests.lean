import Mathlib.Data.List.Forall2
import NestedSql.Request.Basic

/-!
# Queries that differ in values and output names

Two queries are alike when one comes from the other by putting other values into its comparisons
and by giving other names to its output fields and aggregates. The names are paired place by place,
in the order in which statements write them. Nothing else may differ: variables are kept, and so is
all that stands in positions that are not supported.
-/

namespace NestedSql

/-! ## Variables of a query -/

mutual

/-- The variables that a filter refers to. -/
def Expression.variables : Expression → List String
  | .and parts => partsVariables parts
  | .or parts => partsVariables parts
  | .not part => part.variables
  | .unary target _ => target.variables
  | .binary target _ value => target.variables ++ value.variables
  | .existsIn _ filter => filterVariables filter

def ComparisonTarget.variables : ComparisonTarget → List String
  | .column _ path => pathVariables path
  | .rootColumn _ => []

def ComparisonValue.variables : ComparisonValue → List String
  | .scalar _ => []
  | .variable name => [name]
  | .column target => target.variables

def pathVariables : List PathElement → List String
  | [] => []
  | ⟨_, filter⟩ :: path => filterVariables filter ++ pathVariables path

def filterVariables : Option Expression → List String
  | none => []
  | some filter => filter.variables

def partsVariables : List Expression → List String
  | [] => []
  | part :: parts => part.variables ++ partsVariables parts

end

def OrderByTarget.variables : OrderByTarget → List String
  | .column _ path | .singleColumnAggregate _ _ path | .starCountAggregate path =>
    pathVariables path

def orderVariables : Option OrderBy → List String
  | none => []
  | some orderBy => orderBy.elements.flatMap fun element => element.target.variables

def Dimension.variables : Dimension → List String
  | .column _ path => pathVariables path

def groupsVariables : Option Grouping → List String
  | none => []
  | some grouping => grouping.dimensions.flatMap Dimension.variables

mutual

/-- The variables that a query refers to, at any depth. -/
def Query.variables : Query → List String
  | ⟨fields, _, _, _, orderBy, filter, groups⟩ =>
    rowVariables fields ++ orderVariables orderBy ++ filterVariables filter ++
      groupsVariables groups

def rowVariables : Option (List (String × Field)) → List String
  | none => []
  | some fields => fieldsVariables fields

def fieldsVariables : List (String × Field) → List String
  | [] => []
  | (_, field) :: fields => field.variables ++ fieldsVariables fields

def Field.variables : Field → List String
  | .column _ => []
  | .relationship _ query => query.variables

end

/-! ## Filters and orders -/

mutual

/-- The filters differ in nothing but the values they compare with. -/
inductive Expression.Alike : Expression → Expression → Prop
  | and {parts others : List Expression} : PartsAlike parts others →
      Expression.Alike (.and parts) (.and others)
  | or {parts others : List Expression} : PartsAlike parts others →
      Expression.Alike (.or parts) (.or others)
  | not {part other : Expression} : Expression.Alike part other →
      Expression.Alike (.not part) (.not other)
  | unary {target other : ComparisonTarget} (operator : UnaryOperator) :
      ComparisonTarget.Alike target other →
        Expression.Alike (.unary target operator) (.unary other operator)
  | binary {target other : ComparisonTarget} {value changed : ComparisonValue}
      (operator : String) : ComparisonTarget.Alike target other →
        ComparisonValue.Alike value changed →
          Expression.Alike (.binary target operator value) (.binary other operator changed)
  | existsIn {filter other : Option Expression} (source : ExistsSource) :
      FilterAlike filter other → Expression.Alike (.existsIn source filter) (.existsIn source other)

inductive ComparisonTarget.Alike : ComparisonTarget → ComparisonTarget → Prop
  | column {path other : List PathElement} (name : String) : PathAlike path other →
      ComparisonTarget.Alike (.column name path) (.column name other)
  | rootColumn (name : String) : ComparisonTarget.Alike (.rootColumn name) (.rootColumn name)

inductive ComparisonValue.Alike : ComparisonValue → ComparisonValue → Prop
  | scalar (value other : Json) : ComparisonValue.Alike (.scalar value) (.scalar other)
  | named (name : String) : ComparisonValue.Alike (.variable name) (.variable name)
  | column {target other : ComparisonTarget} : ComparisonTarget.Alike target other →
      ComparisonValue.Alike (.column target) (.column other)

inductive PathAlike : List PathElement → List PathElement → Prop
  | nil : PathAlike [] []
  | cons {filter other : Option Expression} {path others : List PathElement}
      (relationship : String) : FilterAlike filter other → PathAlike path others →
        PathAlike (⟨relationship, filter⟩ :: path) (⟨relationship, other⟩ :: others)

inductive FilterAlike : Option Expression → Option Expression → Prop
  | none : FilterAlike none none
  | some {filter other : Expression} : Expression.Alike filter other →
      FilterAlike (some filter) (some other)

inductive PartsAlike : List Expression → List Expression → Prop
  | nil : PartsAlike [] []
  | cons {part other : Expression} {parts others : List Expression} :
      Expression.Alike part other → PartsAlike parts others →
        PartsAlike (part :: parts) (other :: others)

end

inductive OrderByTarget.Alike : OrderByTarget → OrderByTarget → Prop
  | column {path other : List PathElement} (name : String) : PathAlike path other →
      OrderByTarget.Alike (.column name path) (.column name other)
  | singleColumnAggregate {path other : List PathElement} (column function : String) :
      PathAlike path other → OrderByTarget.Alike (.singleColumnAggregate column function path)
        (.singleColumnAggregate column function other)
  | starCountAggregate {path other : List PathElement} : PathAlike path other →
      OrderByTarget.Alike (.starCountAggregate path) (.starCountAggregate other)

/-- The elements sort in the same direction by targets that are alike. -/
structure OrderByElement.Alike (first second : OrderByElement) : Prop where
  direction : first.direction = second.direction
  target : first.target.Alike second.target

def OrderBy.Alike (first second : OrderBy) : Prop :=
  List.Forall₂ OrderByElement.Alike first.elements second.elements

inductive Dimension.Alike : Dimension → Dimension → Prop
  | column {path other : List PathElement} (name : String) : PathAlike path other →
      Dimension.Alike (.column name path) (.column name other)

/-! ## Names -/

/-- Names paired place by place, in the order in which they are written. -/
abbrev Renaming := List (String × String)

/-- Every name is kept. -/
def Renaming.IsKept (names : Renaming) : Prop := ∀ pair ∈ names, pair.1 = pair.2

/-- The renamings of the parts of a node. -/
structure PartRenaming where
  rows : Renaming
  aggregates : Renaming
  groups : Renaming

/-- The renaming of a nested node: of its rows, of its aggregates, of its groups. -/
def PartRenaming.all (names : PartRenaming) : Renaming :=
  names.rows ++ names.aggregates ++ names.groups

/-- The same aggregates in the same order under other names. -/
inductive AggregatesAlike : Renaming → Entries Aggregate → Entries Aggregate → Prop
  | nil : AggregatesAlike [] [] []
  | cons {names : Renaming} {entries others : Entries Aggregate} (old new : String)
      (aggregate : Aggregate) : AggregatesAlike names entries others →
        AggregatesAlike ((old, new) :: names) ((old, aggregate) :: entries)
          ((new, aggregate) :: others)

/-- The groupings differ in values and in the names of their aggregates. -/
structure Grouping.Alike (names : Renaming) (first second : Grouping) : Prop where
  dimensions : List.Forall₂ Dimension.Alike first.dimensions second.dimensions
  aggregates : AggregatesAlike names first.aggregates second.aggregates
  predicate : first.predicate = second.predicate
  orderBy : first.orderBy = second.orderBy
  limit : first.limit = second.limit
  offset : first.offset = second.offset

/-- Parts that are both absent or both present and alike; an absent part has no names. -/
inductive OptionAlike {α : Type} (alike : Renaming → α → α → Prop) :
    Renaming → Option α → Option α → Prop
  | none : OptionAlike alike [] none none
  | some {names : Renaming} {first second : α} : alike names first second →
      OptionAlike alike names (some first) (some second)

mutual

/-- The queries differ in the values they compare with and in their output names. -/
inductive Query.Alike : PartRenaming → Query → Query → Prop
  | of {names : PartRenaming} {fields others : Option (List (String × Field))}
      {aggregates otherAggregates : Option (Entries Aggregate)} {orderBy otherOrder : Option OrderBy}
      {filter otherFilter : Option Expression} {groups otherGroups : Option Grouping}
      (limit offset : Option UInt32) : RowAlike names.rows fields others →
        OptionAlike AggregatesAlike names.aggregates aggregates otherAggregates →
        Option.Rel OrderBy.Alike orderBy otherOrder →
        FilterAlike filter otherFilter →
        OptionAlike Grouping.Alike names.groups groups otherGroups →
          Query.Alike names ⟨fields, aggregates, limit, offset, orderBy, filter, groups⟩
            ⟨others, otherAggregates, limit, offset, otherOrder, otherFilter, otherGroups⟩

inductive RowAlike : Renaming → Option (List (String × Field)) →
    Option (List (String × Field)) → Prop
  | none : RowAlike [] none none
  | some {names : Renaming} {fields others : List (String × Field)} :
      FieldsAlike names fields others → RowAlike names (some fields) (some others)

/-- Each pair of names is followed by those inside the field. -/
inductive FieldsAlike : Renaming → List (String × Field) → List (String × Field) → Prop
  | nil : FieldsAlike [] [] []
  | cons {inner names : Renaming} {field other : Field} {fields others : List (String × Field)}
      (old new : String) : Field.Alike inner field other → FieldsAlike names fields others →
        FieldsAlike ((old, new) :: (inner ++ names)) ((old, field) :: fields)
          ((new, other) :: others)

inductive Field.Alike : Renaming → Field → Field → Prop
  | column (name : String) : Field.Alike [] (.column name) (.column name)
  | relationship {names : PartRenaming} {query other : Query} (name : String) :
      Query.Alike names query other →
        Field.Alike names.all (.relationship name query) (.relationship name other)

end

/-! ## Queries that are kept -/

mutual

theorem Expression.Alike.refl : (filter : Expression) → filter.Alike filter
  | .and parts => .and (PartsAlike.refl parts)
  | .or parts => .or (PartsAlike.refl parts)
  | .not part => .not (Expression.Alike.refl part)
  | .unary target operator => .unary operator (ComparisonTarget.Alike.refl target)
  | .binary target operator value =>
    .binary operator (ComparisonTarget.Alike.refl target) (ComparisonValue.Alike.refl value)
  | .existsIn source filter => .existsIn source (FilterAlike.refl filter)

theorem ComparisonTarget.Alike.refl : (target : ComparisonTarget) → target.Alike target
  | .column name path => .column name (PathAlike.refl path)
  | .rootColumn name => .rootColumn name

theorem ComparisonValue.Alike.refl : (value : ComparisonValue) → value.Alike value
  | .scalar value => .scalar value value
  | .variable name => .named name
  | .column target => .column (ComparisonTarget.Alike.refl target)

theorem PathAlike.refl : (path : List PathElement) → PathAlike path path
  | [] => .nil
  | ⟨relationship, filter⟩ :: path =>
    .cons relationship (FilterAlike.refl filter) (PathAlike.refl path)

theorem FilterAlike.refl : (filter : Option Expression) → FilterAlike filter filter
  | none => .none
  | some filter => .some (Expression.Alike.refl filter)

theorem PartsAlike.refl : (parts : List Expression) → PartsAlike parts parts
  | [] => .nil
  | part :: parts => .cons (Expression.Alike.refl part) (PartsAlike.refl parts)

end

theorem OrderByElement.Alike.refl : (element : OrderByElement) → element.Alike element
  | ⟨_, .column name path⟩ => ⟨rfl, .column name (.refl path)⟩
  | ⟨_, .singleColumnAggregate column function path⟩ =>
    ⟨rfl, .singleColumnAggregate column function (.refl path)⟩
  | ⟨_, .starCountAggregate path⟩ => ⟨rfl, .starCountAggregate (.refl path)⟩

theorem Dimension.Alike.refl : (dimension : Dimension) → dimension.Alike dimension
  | .column name path => .column name (.refl path)

theorem AggregatesAlike.refl (entries : Entries Aggregate) :
    ∃ names, AggregatesAlike names entries entries ∧ names.IsKept := by
  induction entries with
  | nil => exact ⟨[], .nil, nofun⟩
  | cons entry entries ih =>
    obtain ⟨names, halike, hkept⟩ := ih
    exact ⟨_, .cons entry.1 entry.1 entry.2 halike, List.forall_mem_cons.mpr ⟨rfl, hkept⟩⟩

theorem Grouping.Alike.refl (grouping : Grouping) :
    ∃ names, grouping.Alike names grouping ∧ names.IsKept := by
  obtain ⟨names, halike, hkept⟩ := AggregatesAlike.refl grouping.aggregates
  exact ⟨names, ⟨List.forall₂_same.mpr fun dimension _ => .refl dimension, halike, rfl, rfl, rfl,
    rfl⟩, hkept⟩

theorem OptionAlike.refl {α : Type} {alike : Renaming → α → α → Prop}
    (h : ∀ value, ∃ names, alike names value value ∧ names.IsKept) (part : Option α) :
    ∃ names, OptionAlike alike names part part ∧ names.IsKept := by
  cases part with
  | none => exact ⟨[], .none, nofun⟩
  | some value =>
    obtain ⟨names, halike, hkept⟩ := h value
    exact ⟨names, .some halike, hkept⟩

theorem Renaming.IsKept.append {first second : Renaming} (hf : first.IsKept)
    (hs : second.IsKept) : (first ++ second).IsKept :=
  List.forall_mem_append.mpr ⟨hf, hs⟩

/-- Every name of the parts is kept. -/
structure PartRenaming.IsKept (names : PartRenaming) : Prop where
  rows : names.rows.IsKept
  aggregates : names.aggregates.IsKept
  groups : names.groups.IsKept

theorem PartRenaming.IsKept.all {names : PartRenaming} (h : names.IsKept) : names.all.IsKept :=
  (h.rows.append h.aggregates).append h.groups

mutual

theorem Query.Alike.refl : (query : Query) → ∃ names, query.Alike names query ∧ names.IsKept
  | ⟨fields, aggregates, limit, offset, orderBy, filter, groups⟩ => by
    obtain ⟨rows, hrows, hkeptRows⟩ := RowAlike.refl fields
    obtain ⟨outputs, haggregates, hkeptAggregates⟩ := OptionAlike.refl AggregatesAlike.refl aggregates
    obtain ⟨grouped, hgroups, hkeptGroups⟩ := OptionAlike.refl Grouping.Alike.refl groups
    have horder : Option.Rel OrderBy.Alike orderBy orderBy := by
      cases orderBy with
      | none => exact .none
      | some orderBy => exact .some (List.forall₂_same.mpr fun element _ => .refl element)
    exact ⟨⟨rows, outputs, grouped⟩, .of limit offset hrows haggregates horder (.refl filter)
      hgroups, hkeptRows, hkeptAggregates, hkeptGroups⟩

theorem RowAlike.refl : (fields : Option (List (String × Field))) →
    ∃ names, RowAlike names fields fields ∧ names.IsKept
  | none => ⟨[], .none, nofun⟩
  | some fields => by
    obtain ⟨names, halike, hkept⟩ := FieldsAlike.refl fields
    exact ⟨names, .some halike, hkept⟩

theorem FieldsAlike.refl : (fields : List (String × Field)) →
    ∃ names, FieldsAlike names fields fields ∧ names.IsKept
  | [] => ⟨[], .nil, nofun⟩
  | (name, field) :: fields => by
    obtain ⟨inner, hfield, hinner⟩ := Field.Alike.refl field
    obtain ⟨names, hfields, hkept⟩ := FieldsAlike.refl fields
    exact ⟨_, .cons name name hfield hfields,
      List.forall_mem_cons.mpr ⟨rfl, Renaming.IsKept.append hinner hkept⟩⟩

theorem Field.Alike.refl : (field : Field) → ∃ names, field.Alike names field ∧ names.IsKept
  | .column name => ⟨[], .column name, nofun⟩
  | .relationship name query => by
    obtain ⟨names, halike, hkept⟩ := Query.Alike.refl query
    exact ⟨names.all, .relationship name halike, hkept.all⟩

end

end NestedSql
