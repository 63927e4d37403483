import NestedSql.Proofs.Documents.Texts
import NestedSql.Proofs.Scoping.Plans

/-!
# Values in documents

The values of a document stand at its leaves: columns and aggregates, and nothing else. A name that
an output takes from the select inside stands for what bears the name there, so the leaves of a
select are expressions over tables. The leaves of rows are those of the row, aggregates are leaves
themselves, and the leaves of groups are those of the dimensions and the aggregates.
-/

namespace NestedSql

namespace Sql

mutual

/-- The expressions at the leaves of an output, given the leaves behind the names of the select
inside. What rows are sorted by is no part of the document. -/
def Expr.leaves (inside : Entries (List Expr)) : Expr → List Expr
  | .projected strategy column => [.projected strategy column]
  | .summary value => [.summary value]
  | .output name => (Entries.get? name inside).getD []
  | .allOf _ => []
  | .object members => memberLeaves inside members
  | .array items => itemLeaves inside items
  | .collect item _ => item.leaves inside
  | .coalesce value fallback => value.leaves inside ++ fallback.leaves inside
  | .rowsOf document => document.leaves inside
  | .subquery select => select.leaves

def memberLeaves (inside : Entries (List Expr)) : List (String × Expr) → List Expr
  | [] => []
  | (_, value) :: members => value.leaves inside ++ memberLeaves inside members

def itemLeaves (inside : Entries (List Expr)) : List Expr → List Expr
  | [] => []
  | item :: items => item.leaves inside ++ itemLeaves inside items

def outputLeaves (inside : Entries (List Expr)) : List (Expr × Option String) → List Expr
  | [] => []
  | (value, _) :: outputs => value.leaves inside ++ outputLeaves inside outputs

/-- The outputs with names, each with its leaves. -/
def outputNames (inside : Entries (List Expr)) :
    List (Expr × Option String) → Entries (List Expr)
  | [] => []
  | (value, some name) :: outputs => (name, value.leaves inside) :: outputNames inside outputs
  | (_, none) :: outputs => outputNames inside outputs

/-- What the names stand for that a source gives. -/
def Source.names : Source → Entries (List Expr)
  | .nothing | .tables _ _ => []
  | .derived select _ => select.names

def Select.names : Select → Entries (List Expr)
  | ⟨outputs, source, _, _, _, _⟩ => outputNames source.names outputs

def Select.leaves : Select → List Expr
  | ⟨outputs, source, _, _, _, _⟩ => outputLeaves source.names outputs

end

theorem memberLeaves_eq (inside : Entries (List Expr)) (members : List (String × Expr)) :
    memberLeaves inside members = members.flatMap fun member => member.2.leaves inside := by
  induction members with
  | nil => rfl
  | cons member members ih => rw [memberLeaves, ih, List.flatMap_cons]

theorem itemLeaves_eq (inside : Entries (List Expr)) (items : List Expr) :
    itemLeaves inside items = items.flatMap (Expr.leaves inside) := by
  induction items with
  | nil => rfl
  | cons item items ih => rw [itemLeaves, ih, List.flatMap_cons]

theorem outputNames_append (inside : Entries (List Expr))
    (first second : List (Expr × Option String)) :
    outputNames inside (first ++ second) =
      outputNames inside first ++ outputNames inside second := by
  induction first with
  | nil => rfl
  | cons output first ih =>
    obtain ⟨value, name⟩ := output
    cases name with
    | none => exact ih
    | some name => exact congrArg (_ :: ·) ih

theorem leaves_single (output : Expr) (source : Source) :
    (Select.single output source).leaves = output.leaves source.names := by
  rw [Select.single, Select.leaves, outputLeaves, outputLeaves, List.append_nil]

end Sql

namespace Compile

open Sql (Condition Expr Select Source Summary Table itemLeaves_eq leaves_single memberLeaves_eq
  outputLeaves outputNames outputNames_append)

/-! ## Numbered names -/

section Numbered

variable {α β : Type}

/-- Names with one start and different numbers are different. -/
theorem distinct_numbered (start : String) (f : α → β) (values : List α) :
    Entries.Distinct (values.mapIdx fun i value => (start ++ toString i, f value)) := by
  rw [Entries.Distinct, Entries.names, List.Nodup, List.pairwise_iff_getElem]
  intro i j hi hj hij
  simp only [List.getElem_map, List.getElem_mapIdx]
  intro heq
  have hnumbers := Number.nat_inj (congrArg String.toList ((String.append_right_inj start).mp heq))
  omega

theorem outputNames_numbered (inside : Entries (List Expr)) (name : Nat → String)
    (value : α → Expr) (values : List α) :
    outputNames inside (values.mapIdx fun i item => (value item, some (name i))) =
      values.mapIdx fun i item => (name i, (value item).leaves inside) := by
  induction values generalizing name with
  | nil => rfl
  | cons item values ih =>
    rw [List.mapIdx_cons, List.mapIdx_cons, outputNames, ih fun i => name (i + 1)]

/-- Numbered names stand for the leaves of what is numbered. -/
theorem numbered_leaves {entries : Entries (List Expr)} (hdistinct : Entries.Distinct entries)
    {name : Nat → String} {leaves : α → List Expr} {values : List α}
    (hmem : ∀ entry ∈ values.mapIdx (fun i value => (name i, leaves value)), entry ∈ entries) :
    (values.mapIdx fun i _ => Expr.output (name i)).flatMap (Expr.leaves entries) =
      values.flatMap leaves := by
  rw [List.flatMap_def, List.flatMap_def]
  congr 1
  refine List.ext_getElem (by simp) fun i hi _ => ?_
  rw [List.length_map, List.length_mapIdx] at hi
  have hentry : (name i, leaves values[i]) ∈ entries :=
    hmem _ (List.mem_mapIdx.mpr ⟨i, hi, rfl⟩)
  simp only [List.getElem_mapIdx, List.getElem_map, Expr.leaves,
    Entries.get?_of_mem hdistinct hentry, Option.getD_some]

end Numbered

/-! ## Selects of a node -/

theorem rowsSelect_leaves (rows : Rows) (row : Expr) :
    (rowsSelect rows row).leaves = row.leaves [] := by
  rw [rowsSelect, leaves_single]
  simp only [arrayOf, emptyArray, Expr.leaves, Sql.memberLeaves, Sql.itemLeaves, Source.names,
    Select.names, outputNames, Entries.get?, if_true, Option.getD_some, List.append_nil]

theorem aggregatesSelect_leaves (rows : Rows) (outputs : List (String × Summary)) :
    (aggregatesSelect rows outputs).leaves = outputs.map fun output => .summary output.2 := by
  rw [aggregatesSelect]
  split
  · next h =>
    rw [List.isEmpty_iff.mp h]
    rfl
  · rw [leaves_single, Expr.leaves, memberLeaves_eq, List.flatMap_map]
    simp only [Expr.leaves]
    exact List.map_eq_flatMap.symm

/-- The outputs of groups by their names. -/
def groupEntries (dimensions : List Expr) (outputs : List (String × Summary)) :
    Entries (List Expr) :=
  (dimensions.mapIdx fun i value => (dimensionName i, value.leaves [])) ++
    outputs.mapIdx fun i output => (aggregateName i, [.summary output.2])

theorem distinct_groupEntries (dimensions : List Expr) (outputs : List (String × Summary)) :
    Entries.Distinct (groupEntries dimensions outputs) := by
  rw [groupEntries, Entries.Distinct, Entries.names, List.map_append]
  refine List.nodup_append.mpr ⟨distinct_numbered "d" (Expr.leaves []) dimensions,
    distinct_numbered "a" (fun output : String × Summary => [Expr.summary output.2]) outputs, ?_⟩
  -- the first letter tells a dimension from an aggregate
  have hletters : ∀ i j, dimensionName i ≠ aggregateName j := by
    intro i j h
    have hlists : ("d" ++ toString i).toList = ("a" ++ toString j).toList :=
      congrArg String.toList h
    rw [String.toList_append, String.toList_append] at hlists
    have hfirst : 'd' = 'a' := (List.cons.inj hlists).1
    exact absurd hfirst (by decide)
  intro name hname other hother
  simp only [List.mem_map, List.mem_mapIdx] at hname hother
  obtain ⟨_, ⟨i, -, rfl⟩, rfl⟩ := hname
  obtain ⟨_, ⟨j, -, rfl⟩, rfl⟩ := hother
  exact hletters i j

/-- Groups without outputs have one that no name stands for. -/
theorem groupNames_spec (dimensions : List Expr) (outputs : List (String × Summary))
    {named : List (Expr × Option String)}
    (hnamed : dimensions.mapIdx (fun i value => (value, some (dimensionName i))) ++
      outputs.mapIdx (fun i output => (.summary output.2, some (aggregateName i))) = named) :
    ∃ entries, outputNames [] (if named.isEmpty then [(.summary .rows, some "n")] else named) =
      entries ∧ Entries.Distinct entries ∧
        ∀ entry ∈ groupEntries dimensions outputs, entry ∈ entries := by
  have hall : outputNames [] named = groupEntries dimensions outputs := by
    rw [← hnamed, outputNames_append, outputNames_numbered [] dimensionName (fun value => value),
      outputNames_numbered [] aggregateName fun output : String × Summary => .summary output.2]
    rfl
  refine ⟨_, rfl, ?_⟩
  cases named with
  | nil =>
    rw [← hall]
    exact ⟨List.pairwise_singleton _ _, List.forall_mem_nil _⟩
  | cons output named =>
    rw [List.isEmpty_cons, if_neg Bool.false_ne_true, hall]
    exact ⟨distinct_groupEntries dimensions outputs, fun _ h => h⟩

theorem groupsSelect_leaves (table : Table) (conditions : List Condition) (page : Sql.Page)
    (dimensions : List Expr) (outputs : List (String × Summary)) :
    (groupsSelect table conditions page dimensions outputs).leaves =
      dimensions.flatMap (Expr.leaves []) ++ outputs.map fun output => .summary output.2 := by
  rw [groupsSelect]
  generalize hnamed : dimensions.mapIdx (fun i value => (value, some (dimensionName i))) ++
    outputs.mapIdx (fun i output => (Expr.summary output.2, some (aggregateName i))) = named
  obtain ⟨entries, hentries, hdistinct, hmem⟩ := groupNames_spec dimensions outputs hnamed
  obtain ⟨hdimensions, haggregates⟩ := List.forall_mem_append.mp hmem
  have hmembers : (outputs.mapIdx fun i output => (output.1, Expr.output (aggregateName i))).map
      Prod.snd = outputs.mapIdx fun i _ => Expr.output (aggregateName i) :=
    List.ext_getElem (by simp) fun i _ _ => by simp
  rw [leaves_single]
  simp only [arrayOf, emptyArray, Expr.leaves, Sql.memberLeaves, Sql.itemLeaves, memberLeaves_eq,
    itemLeaves_eq, Source.names, Select.names, hentries, List.append_nil]
  rw [numbered_leaves hdistinct hdimensions,
    ← List.flatMap_map Prod.snd (Expr.leaves entries), hmembers,
    numbered_leaves hdistinct haggregates, ← List.map_eq_flatMap]

theorem childExpr_leaves (child : Node) :
    (childExpr child).leaves [] = child.selects.flatMap Select.leaves := by
  obtain ⟨rows, aggregates, groups⟩ := child
  cases rows <;> cases aggregates <;> cases groups <;>
    simp [childExpr, emptyArray, Node.selects, Expr.leaves, Sql.memberLeaves, Sql.itemLeaves,
      leaves_single]

end Compile

end NestedSql
