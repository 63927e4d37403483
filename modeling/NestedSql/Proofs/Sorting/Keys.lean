import Mathlib.Data.List.Forall2
import NestedSql.Sql.Render

/-!
# Sort keys on rows

A sort key stands for an expression over the rows of a source: a column, or what the select inside
gives out under a name. Rows are compared by the values of these expressions, key after key. Behind
a derived table only the values that its select gave are left, and they compare as the values of the
expressions behind their names.
-/

namespace NestedSql.Sql

variable {Row Value α β : Type}

/-- What expressions are worth in the rows of a source, and how the values of an expression compare
under a strategy. -/
structure Valuation (Row Value : Type) where
  value : Expr → Row → Value
  compare : Expr → Strategy → Value → Value → Ordering

/-- A row of a derived table: what the outputs of its select are worth. -/
abbrev GivenRow (Value : Type) := List (Option String × Value)

/-! ## Names of a select -/

/-- The first output of a select under a name. -/
def Select.output? (select : Select) (name : String) : Option Expr :=
  (select.outputs.map fun output => (output.2, output.1)).lookup (some name)

/-- The outputs of a select on a row of its source. -/
def Select.give (valuation : Valuation Row Value) (select : Select) (row : Row) :
    GivenRow Value :=
  select.outputs.map fun output => (output.2, valuation.value output.1 row)

theorem lookup_give (valuation : Valuation Row Value) (select : Select) (row : Row)
    (name : String) :
    (select.give valuation row).lookup (some name) =
      (select.output? name).map fun output => valuation.value output row := by
  rw [Select.give, Select.output?]
  induction select.outputs with
  | nil => rfl
  | cons output outputs ih =>
    obtain ⟨value, outputName⟩ := output
    rw [List.map_cons, List.map_cons, List.lookup_cons, List.lookup_cons]
    cases some name == outputName with
    | true => rfl
    | false => exact ih

theorem Select.output?_of_mem {select : Select} (hnames : (select.outputs.map Prod.snd).Nodup)
    {name : String} {output : Expr} (hmem : (output, some name) ∈ select.outputs) :
    select.output? name = some output := by
  rw [Select.output?]
  generalize select.outputs = outputs at hnames hmem
  induction outputs with
  | nil => cases hmem
  | cons first outputs ih =>
    obtain ⟨value, firstName⟩ := first
    rw [List.map_cons, List.nodup_cons] at hnames
    rw [List.map_cons, List.lookup_cons]
    rcases List.mem_cons.mp hmem with heq | hmem
    · cases heq
      rw [beq_self_eq_true]
    · have hlater : some name ∈ outputs.map Prod.snd := List.mem_map.mpr ⟨_, hmem, rfl⟩
      have hne : some name ≠ firstName := by
        rintro rfl
        exact hnames.1 hlater
      rw [beq_false_of_ne hne]
      exact ih hnames.2 hmem

/-! ## Comparing rows -/

/-- The expression that a sort key of a select, or outside of it, stands for. -/
def SortKey.subject? (select : Select) (key : SortKey) : Option Expr :=
  match key.column with
  | .column ref => some (.projected .plainColumn ref)
  | .output name => select.output? name

/-- A comparison in a direction. -/
def directed (direction : Option OrderDirection) (comparison : Ordering) : Ordering :=
  if direction = some .desc then comparison.swap else comparison

/-- How a key compares two rows of the source of a select. -/
def SortKey.compareRows (valuation : Valuation Row Value) (select : Select) (key : SortKey)
    (first second : Row) : Ordering :=
  match key.subject? select with
  | some subject => directed key.direction <| valuation.compare subject key.strategy
      (valuation.value subject first) (valuation.value subject second)
  | none => .eq

/-- How a key outside compares two rows that a select gave: it reads names, and no column of the
source. -/
def SortKey.compareGiven (valuation : Valuation Row Value) (select : Select) (key : SortKey)
    (first second : GivenRow Value) : Ordering :=
  match key.column with
  | .column _ => .eq
  | .output name =>
    match select.output? name, first.lookup (some name), second.lookup (some name) with
    | some subject, some value, some other =>
      directed key.direction (valuation.compare subject key.strategy value other)
    | _, _, _ => .eq

/-- The first key that tells two rows apart decides. -/
def compareBy (compare : SortKey → α → α → Ordering) (keys : List SortKey) (first second : α) :
    Ordering :=
  keys.foldr (fun key later => (compare key first second).then later) .eq

/-- A key outside stands for what a key inside stands for, and compares it in the same way. -/
structure SortKey.Follows (select : Select) (outer inner : SortKey) : Prop where
  named : ∃ name, outer.column = .output name
  subject : outer.subject? select = inner.subject? select
  strategy : outer.strategy = inner.strategy
  direction : outer.direction = inner.direction

variable {valuation : Valuation Row Value} {select : Select}

theorem SortKey.Follows.compareGiven_give {outer inner : SortKey}
    (h : outer.Follows select inner) (first second : Row) :
    outer.compareGiven valuation select (select.give valuation first)
        (select.give valuation second) =
      inner.compareRows valuation select first second := by
  obtain ⟨name, hname⟩ := h.named
  have hsubject : outer.subject? select = select.output? name := by
    rw [SortKey.subject?, hname]
  rw [SortKey.compareGiven, SortKey.compareRows, hname, ← h.subject, hsubject, ← h.strategy,
    ← h.direction]
  simp only [lookup_give]
  cases select.output? name <;> rfl

/-- What numbers each value of a list is related to it, if it is for every position. -/
theorem forall₂_numbered {related : β → α → Prop} {number : Nat → α → β} {values : List α}
    (h : ∀ i value, values[i]? = some value → related (number i value) value) :
    List.Forall₂ related (values.mapIdx number) values := by
  induction values generalizing number with
  | nil => exact .nil
  | cons value values ih =>
    rw [List.mapIdx_cons]
    exact .cons (h 0 value rfl) (ih fun i => h (i + 1))

/-- Keys that follow others one by one compare the rows of a derived table as these compare the rows
behind them. -/
theorem compareBy_give {outer inner : List SortKey}
    (h : List.Forall₂ (SortKey.Follows select) outer inner) (first second : Row) :
    compareBy (SortKey.compareGiven valuation select) outer (select.give valuation first)
        (select.give valuation second) =
      compareBy (SortKey.compareRows valuation select) inner first second := by
  induction h with
  | nil => rfl
  | cons hkey _ ih =>
    rw [compareBy, List.foldr_cons, hkey.compareGiven_give]
    exact congrArg (Ordering.then _) ih

/-! ## Sorting rows -/

/-- No row comes after a later one. -/
def SortedBy (compare : α → α → Ordering) (rows : List α) : Prop :=
  rows.Pairwise fun first second => (compare first second).isLE = true

/-- The rows in order, those that compare equal as they stood. -/
def sortBy (compare : α → α → Ordering) (rows : List α) : List α :=
  rows.mergeSort fun first second => (compare first second).isLE

theorem SortedBy.sortBy_eq {compare : α → α → Ordering} {rows : List α}
    (h : SortedBy compare rows) : sortBy compare rows = rows := List.mergeSort_of_pairwise h

theorem sortedBy_map {compare : α → α → Ordering} {other : β → β → Ordering} {f : α → β}
    (h : ∀ first second, other (f first) (f second) = compare first second) {rows : List α} :
    SortedBy other (rows.map f) ↔ SortedBy compare rows := by
  simp only [SortedBy, List.pairwise_map, h]

/-- The rows that a page takes. -/
def Page.window (page : Page) (rows : List α) : List α :=
  match page.limit, page.offset with
  | some limit, some offset => (rows.drop offset.toNat).take limit.toNat
  | some limit, none => rows.take limit.toNat
  | none, some offset => (rows.drop offset.toNat).take unboundedLimit
  | none, none => rows

theorem Page.window_sublist (page : Page) (rows : List α) :
    (page.window rows).Sublist rows := by
  rw [window]
  split
  · exact (List.take_sublist _ _).trans (List.drop_sublist _ _)
  · exact List.take_sublist _ _
  · exact (List.take_sublist _ _).trans (List.drop_sublist _ _)
  · exact .refl _

theorem SortedBy.window {compare : α → α → Ordering} {rows : List α} (h : SortedBy compare rows)
    (page : Page) : SortedBy compare (page.window rows) :=
  List.Pairwise.sublist (page.window_sublist rows) h

/-- The values of a name in the rows that a select gave, sorted by keys outside. -/
def collected (valuation : Valuation Row Value) (select : Select) (name : String)
    (keys : List SortKey) (given : List (GivenRow Value)) : List (Option Value) :=
  (sortBy (compareBy (SortKey.compareGiven valuation select) keys) given).map fun row =>
    row.lookup (some name)

/-- The page of a select over sorted rows is collected as it stands, row by row. -/
theorem collected_page {outer : List SortKey}
    (h : List.Forall₂ (SortKey.Follows select) outer select.orderBy) {name : String}
    {output : Expr} (hname : select.output? name = some output) {rows : List Row}
    (hrows : SortedBy (compareBy (SortKey.compareRows valuation select) select.orderBy) rows) :
    collected valuation select name outer
        ((select.page.window rows).map (select.give valuation)) =
      (select.page.window rows).map fun row => some (valuation.value output row) := by
  have hsorted := (sortedBy_map (compareBy_give h)).mpr (hrows.window select.page)
  rw [collected, hsorted.sortBy_eq, List.map_map]
  refine List.map_congr_left fun row _ => ?_
  rw [Function.comp_apply, lookup_give, hname]
  rfl

end NestedSql.Sql
