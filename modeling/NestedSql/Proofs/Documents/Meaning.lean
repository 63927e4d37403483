import Mathlib.Data.List.Forall2
import NestedSql.Json.Basic
import NestedSql.Sql.Tree

/-!
# What selects return

The meaning of statement trees as far as documents depend on it. A value is NULL or a document.
Columns and aggregate functions may have any value, a table and its joins any rows; which rows a
condition keeps, how rows fall into groups and in which order they come is left open. What is fixed
is how rows make up results: a select that gathers rows has one row for all of them, or one for
each group; another select has one for each row. A select in the place of a value is its one row,
and NULL where it has none.
-/

namespace NestedSql

/-- The member with a name; NULL if there is none. -/
def Json.member? (name : String) : Json → Option Json
  | .object members => Entries.get? name members
  | _ => none

namespace Sql

/-- NULL or a document. -/
abbrev Cell := Option Json

/-- A row with the names of its columns, where they have any. -/
abbrev Record := List (Option String × Cell)

/-- What outputs are computed from: one row, or rows taken together. -/
inductive Input where
  | row (record : Record)
  | rows (records : List Record)

/-! ## Selects that gather rows -/

mutual

/-- The output takes rows together. A select inside gathers its own rows. -/
def Expr.gathers : Expr → Bool
  | .summary _ | .collect _ _ => true
  | .projected _ _ | .output _ | .allOf _ | .subquery _ => false
  | .object members => membersGather members
  | .array items => itemsGather items
  | .coalesce value fallback => value.gathers || fallback.gathers
  | .rowsOf document => document.gathers

def membersGather : List (String × Expr) → Bool
  | [] => false
  | (_, value) :: members => value.gathers || membersGather members

def itemsGather : List Expr → Bool
  | [] => false
  | item :: items => item.gathers || itemsGather items

end

/-- The rows fall into groups, none of them empty; without groups they are gathered in whole or
stay single. -/
def Divides (gathers : Bool) (groupBy : List Expr) (records : List Record)
    (inputs : List Input) : Prop :=
  match groupBy with
  | [] => inputs = if gathers then [.rows records] else records.map .row
  | _ :: _ => ∃ groups : List (List Record), groups.flatten.Perm records ∧ [] ∉ groups ∧
      inputs = groups.map .rows

/-- A page keeps some of the inputs, and all if it has no bounds. -/
def Page.Keeps (page : Page) (inputs kept : List Input) : Prop :=
  kept.Sublist inputs ∧ (page = .all → kept = inputs)

/-- What a select draws from some rows: those that its conditions keep, divided, brought into
an order and cut to a page. -/
def Draws (gathers : Bool) (conditions : List Condition) (groupBy : List Expr) (page : Page)
    (records : List Record) (inputs : List Input) : Prop :=
  ∃ matching divided ordered, matching.Sublist records ∧ (conditions = [] → matching = records) ∧
    Divides gathers groupBy matching divided ∧ ordered.Perm divided ∧ page.Keeps ordered inputs

/-- A select in the place of a value: its one column in its one row, NULL without a row. -/
def Single (results : List Record) (cell : Cell) : Prop :=
  (results = [] ∧ cell = none) ∨ ∃ name, results = [[(name, cell)]]

/-! ## Outputs and selects -/

mutual

/-- The values that an output may have for an input. -/
def Expr.Gives : Expr → Input → Cell → Prop
  | .projected _ _, _, _ => True
  | .summary _, _, _ => True
  | .allOf _, _, _ => True
  | .output name, .row record, cell => record.lookup (some name) = some cell
  | .output _, .rows _, _ => False
  | .object members, input, cell =>
    ∃ values, MembersGive members input values ∧ cell = some (.object values)
  | .array items, input, cell =>
    ∃ values, ItemsGive items input values ∧ cell = some (.array values)
  | .collect _ _, .row _, _ => False
  | .collect item _, .rows records, cell =>
    (records = [] ∧ cell = none) ∨
      records ≠ [] ∧ ∃ ordered values, ordered.Perm records ∧
        List.Forall₂ (fun record value => ∃ found, item.Gives (.row record) found ∧
          found.getD .null = value) ordered values ∧ cell = some (.array values)
  | .coalesce value fallback, input, cell =>
    ∃ found, value.Gives input found ∧
      (found = none ∧ fallback.Gives input cell ∨ found ≠ none ∧ cell = found)
  | .rowsOf document, input, cell =>
    ∃ found, document.Gives input found ∧ cell = found.bind (Json.member? "rows")
  | .subquery select, _, cell => ∃ results, select.Returns results ∧ Single results cell

/-- The members of an object; a value that is NULL is null. -/
def MembersGive : List (String × Expr) → Input → List (String × Json) → Prop
  | [], _, values => values = []
  | (name, value) :: members, input, values =>
    ∃ cell rest, value.Gives input cell ∧ MembersGive members input rest ∧
      values = (name, cell.getD .null) :: rest

def ItemsGive : List Expr → Input → List Json → Prop
  | [], _, values => values = []
  | item :: items, input, values =>
    ∃ cell rest, item.Gives input cell ∧ ItemsGive items input rest ∧
      values = cell.getD .null :: rest

/-- A row of outputs under their names. -/
def OutputsGive : List (Expr × Option String) → Input → Record → Prop
  | [], _, record => record = []
  | (value, name) :: outputs, input, record =>
    ∃ cell rest, value.Gives input cell ∧ OutputsGive outputs input rest ∧
      record = (name, cell) :: rest

/-- The rows that a source may have. -/
def Source.Provides : Source → List Record → Prop
  | .nothing, records => records = [[]]
  | .tables _ _, _ => True
  | .derived select _, records => select.Returns records

/-- The results that a select may have. -/
def Select.Returns : Select → List Record → Prop
  | ⟨outputs, source, conditions, groupBy, _, page⟩, results =>
    ∃ records inputs, source.Provides records ∧
      Draws (outputs.any fun output => output.1.gathers) conditions groupBy page records inputs ∧
      List.Forall₂ (fun input result => OutputsGive outputs input result) inputs results

end

/-- The values that a select may have in the place of a value. -/
def Select.Value (select : Select) (cell : Cell) : Prop :=
  ∃ results, select.Returns results ∧ Single results cell

/-! ## Consequences -/

theorem related_of_mem {α β : Type} {related : α → β → Prop} {first : List α} {second : List β}
    (h : List.Forall₂ related first second) {b : β} (hb : b ∈ second) :
    ∃ a ∈ first, related a b := by
  induction h with
  | nil => exact absurd hb List.not_mem_nil
  | cons hrelated _ ih =>
    rcases List.mem_cons.mp hb with rfl | hb
    · exact ⟨_, List.mem_cons_self, hrelated⟩
    · obtain ⟨a, ha, hrelated⟩ := ih hb
      exact ⟨a, List.mem_cons_of_mem _ ha, hrelated⟩

/-- One input gives one row, and its one column is the value. -/
theorem gives_of_single {output : Expr} {input : Input} {results : List Record} {cell : Cell}
    (houtputs : List.Forall₂ (fun input result => OutputsGive [(output, none)] input result) [input]
      results) (hsingle : Single results cell) : output.Gives input cell := by
  cases houtputs with
  | cons hresult hrest =>
    cases hrest
    obtain ⟨found, rest, hgives, hnone, rfl⟩ := hresult
    obtain rfl : rest = [] := hnone
    rcases hsingle with ⟨hempty, -⟩ | ⟨name, hone⟩
    · exact absurd hempty (List.cons_ne_nil _ _)
    · obtain ⟨-, rfl⟩ := Prod.mk.inj (List.singleton_inj.mp (List.singleton_inj.mp hone))
      exact hgives

/-- A select of one output, where its source is one input, has the values of this output. -/
theorem value_single_iff {output : Expr} {source : Source} {cell : Cell}
    {input : List Record → Input}
    (hdivides : ∀ records, source.Provides records → ∀ inputs,
      Divides output.gathers [] records inputs ↔ inputs = [input records]) :
    (Select.single output source).Value cell ↔
      ∃ records, source.Provides records ∧ output.Gives (input records) cell := by
  have hany : ([(output, none)] : List (Expr × Option String)).any
      (fun output => output.1.gathers) = output.gathers := by simp
  constructor
  · rintro ⟨results, hreturns, hsingle⟩
    rw [Select.single, Select.Returns, hany] at hreturns
    obtain ⟨records, inputs, hsource, ⟨matching, divided, ordered, -, hmatching, hdivided, hordered,
      -, hpage⟩, houtputs⟩ := hreturns
    obtain rfl := hmatching rfl
    obtain rfl := hpage rfl
    obtain rfl := (hdivides matching hsource divided).mp hdivided
    obtain rfl := List.perm_singleton.mp hordered
    exact ⟨matching, hsource, gives_of_single houtputs hsingle⟩
  · rintro ⟨records, hsource, hgives⟩
    refine ⟨[[(none, cell)]], ?_, .inr ⟨none, rfl⟩⟩
    rw [Select.single, Select.Returns, hany]
    exact ⟨records, [input records], hsource, ⟨records, _, _, .refl _, fun _ => rfl,
      (hdivides records hsource _).mpr rfl, .refl _, .refl _, fun _ => rfl⟩,
      .cons ⟨cell, [], hgives, rfl, rfl⟩ .nil⟩

/-- A select of one output that gathers rows has the value of this output over all rows. -/
theorem value_single_gathered {output : Expr} {source : Source} {cell : Cell}
    (hgathers : output.gathers = true) :
    (Select.single output source).Value cell ↔
      ∃ records, source.Provides records ∧ output.Gives (.rows records) cell := by
  refine value_single_iff fun records _ inputs => ?_
  rw [hgathers]
  rfl

/-- A select of one output without a source has the value of this output. -/
theorem value_single_nothing {output : Expr} {cell : Cell} (hgathers : output.gathers = false) :
    (Select.single output .nothing).Value cell ↔ output.Gives (.row []) cell := by
  have hdivides : ∀ records, Source.nothing.Provides records → ∀ inputs,
      Divides output.gathers [] records inputs ↔ inputs = [.row []] := by
    intro records hsource inputs
    rw [hgathers, hsource]
    rfl
  rw [value_single_iff hdivides]
  exact ⟨fun ⟨_, _, h⟩ => h, fun h => ⟨[[]], rfl, h⟩⟩

/-- Every row of a derived source holds values of the outputs inside. -/
theorem outputs_of_returns {select : Select} {results : List Record}
    (h : select.Returns results) {record : Record} (hrecord : record ∈ results) :
    ∃ input, OutputsGive select.outputs input record := by
  obtain ⟨outputs, source, conditions, groupBy, orderBy, page⟩ := select
  rw [Select.Returns] at h
  obtain ⟨records, inputs, -, -, houtputs⟩ := h
  obtain ⟨input, -, hgives⟩ := related_of_mem houtputs hrecord
  exact ⟨input, hgives⟩

end Sql

end NestedSql
