import Mathlib.Algebra.BigOperators.Ring.List
import Mathlib.Algebra.Order.BigOperators.Group.List
import Mathlib.Tactic.Positivity
import Mathlib.Tactic.Ring
import NestedSql.Compile.Node
import NestedSql.Proofs.Statistics.Formulas

/-!
# Variance and standard deviation

The text of a variance is arithmetic over a count and two sums, in one pass over the rows. Read and
computed with exact fractions it is the variance by its definition: the squared deviations from the
mean, summed, over the number of values or, for a sample, over one less; and it is NULL where there
are too few values. The sum of squares is never negative, so the guard inside a standard deviation
never chooses zero, and the root is taken of the variance itself.
-/

namespace NestedSql

open Sql Sql.Arithmetic

/-! ## Definitions -/

def mean (values : List ℚ) : ℚ := values.sum / values.length

/-- The squared deviations from the mean, summed. -/
def spread (values : List ℚ) : ℚ := (values.map fun x => (x - mean values) ^ 2).sum

/-- The variance of a sample or of a population; there is none of too few values. -/
def variance? (sample : Bool) (values : List ℚ) : Quantity :=
  match sample with
  | true => if 2 ≤ values.length then some (spread values / (values.length - 1)) else none
  | false => if 1 ≤ values.length then some (spread values / values.length) else none

example : variance? true [1, 2, 4] = some (7 / 3) := by decide +kernel

/-- The number of values, or one less for a sample. -/
def divisor (sample : Bool) (values : List ℚ) : ℚ :=
  if sample then values.length - 1 else values.length

/-! ## The one-pass form -/

theorem length_mul_mean (values : List ℚ) : values.length * mean values = values.sum := by
  cases values with
  | nil => simp [mean]
  | cons x values =>
    have hn : ((x :: values).length : ℚ) ≠ 0 := by
      rw [List.length_cons]
      positivity
    rw [mean, mul_div_cancel₀ _ hn]

/-- Every square is expanded, and the mean stands for the sum over the count. -/
theorem length_mul_spread (values : List ℚ) :
    values.length * spread values =
      values.length * (values.map (· ^ 2)).sum - values.sum ^ 2 := by
  have hexpand : ∀ x, (x - mean values) ^ 2 = x ^ 2 + (-2 * mean values * x + mean values ^ 2) := by
    intro x
    ring
  have hlinear : (values.map fun x => -2 * mean values * x).sum =
      -2 * mean values * values.sum := by
    rw [List.sum_map_mul_left, List.map_id']
  have hspread : spread values = (values.map (· ^ 2)).sum +
      (-2 * mean values * values.sum + values.length * mean values ^ 2) := by
    simp only [spread, hexpand, List.sum_map_add, hlinear, List.map_const', List.sum_replicate,
      nsmul_eq_mul]
  have hmean := length_mul_mean values
  calc values.length * spread values
      = values.length * (values.map (· ^ 2)).sum -
          2 * (values.length * mean values) * values.sum + (values.length * mean values) ^ 2 := by
        rw [hspread]
        ring
    _ = values.length * (values.map (· ^ 2)).sum - values.sum ^ 2 := by
        rw [hmean]
        ring

theorem spread_nonneg (values : List ℚ) : 0 ≤ spread values := by
  refine List.sum_nonneg fun square hsquare => ?_
  obtain ⟨x, -, rfl⟩ := List.mem_map.mp hsquare
  exact sq_nonneg _

theorem variance?_nonneg {sample : Bool} {values : List ℚ} {v : ℚ}
    (h : v ∈ variance? sample values) : 0 ≤ v := by
  have hspread := spread_nonneg values
  cases sample with
  | true =>
    obtain ⟨hn, hv⟩ := Option.ite_none_right_eq_some.mp h
    obtain rfl := Option.some.inj hv
    have hone : (1 : ℚ) ≤ values.length := by exact_mod_cast Nat.one_le_of_lt hn
    exact div_nonneg hspread (sub_nonneg.mpr hone)
  | false =>
    obtain ⟨hn, hv⟩ := Option.ite_none_right_eq_some.mp h
    obtain rfl := Option.some.inj hv
    exact div_nonneg hspread (Nat.cast_nonneg _)

/-- There are too few values where there are none or the divisor is zero. -/
theorem variance?_eq_div (sample : Bool) {values : List ℚ} (h : values ≠ []) :
    variance? sample values =
      if divisor sample values = 0 then none else some (spread values / divisor sample values) := by
  have hpos : 1 ≤ values.length := List.length_pos_iff.mpr h
  cases sample with
  | false =>
    have hne : (values.length : ℚ) ≠ 0 := by exact_mod_cast Nat.ne_of_gt hpos
    simp only [variance?, divisor, if_pos hpos, Bool.false_eq_true, if_false, if_neg hne]
  | true =>
    by_cases hone : values.length = 1
    · simp [variance?, divisor, hone]
    · have htwo : 2 ≤ values.length := by omega
      have hne : (values.length : ℚ) - 1 ≠ 0 := sub_ne_zero.mpr (by exact_mod_cast hone)
      simp only [variance?, divisor, if_pos htwo, if_true, if_neg hne]

/-! ## The value of the text -/

namespace Formula

/-- `n·Σx² − (Σx)²`. -/
def onePass : Formula :=
  sub (mul size (sum (.square (.asDouble .column)))) (square (sum (.asDouble .column)))

/-- `n·(n−1)` of a sample, `n²` of a population. -/
def weight (sample : Bool) : Formula :=
  mul size (if sample then group (sub size (number 1)) else size)

theorem tree_variance (sample : Bool) (ref : ColumnRef) :
    (variance sample).tree ref =
      .binary '/' (onePass.tree ref) (.apply "NULLIF" ((weight sample).tree ref) (.number "0")) :=
  rfl

end Formula

section Values

variable {root : ℚ → ℚ} {ref : ColumnRef} {cells : List Quantity} {term : RowTerm} {f : ℚ → ℚ}

/-- The term is the function in rows that are not NULL in the column. -/
def Computes (ref : ColumnRef) (term : RowTerm) (f : ℚ → ℚ) : Prop :=
  ∀ cell, (term.tree ref).inRow? ref cell = some (cell.map f)

theorem computes_column : Computes ref .column id := by
  intro cell
  rw [RowTerm.tree, inRow?, if_pos rfl, Option.map_id]
  rfl

theorem Computes.asDouble (h : Computes ref term f) : Computes ref (.asDouble term) f := by
  intro cell
  rw [RowTerm.tree, inRow?, if_pos rfl, h cell]

theorem power_two (cell : Quantity) : applied? "POWER" cell (some (digitsValue "2")) =
    some (cell.map (· ^ 2)) := by
  cases cell with
  | none => rfl
  | some x => rfl

theorem Computes.square (h : Computes ref term f) :
    Computes ref (.square term) fun x => f x ^ 2 := by
  intro cell
  have hpower := power_two (cell.map f)
  rw [Option.map_map] at hpower
  simp only [RowTerm.tree, inRow?, h cell, Option.bind_eq_bind, Option.bind_some]
  exact hpower

theorem Computes.mapM (h : Computes ref term f) :
    cells.mapM (fun cell => (term.tree ref).inRow? ref cell) = some (cells.map (Option.map f)) := by
  have hterm : (fun cell => (term.tree ref).inRow? ref cell) = fun cell => pure (cell.map f) :=
    funext h
  rw [hterm, List.mapM_pure]
  rfl

theorem inGroup_count (h : Computes ref term f) :
    ((Formula.count term).tree ref).inGroup? root ref cells =
      some (some (cells.reduceOption.length : ℚ)) := by
  simp [h.mapM, aggregate?, List.reduceOption_map]

theorem inGroup_sum (h : Computes ref term f) :
    ((Formula.sum term).tree ref).inGroup? root ref cells =
      some (if cells.reduceOption = [] then none else some (cells.reduceOption.map f).sum) := by
  simp [h.mapM, aggregate?, List.reduceOption_map]

theorem inGroup_binary {left right : Arithmetic} {x y : Quantity}
    (hl : left.inGroup? root ref cells = some x) (hr : right.inGroup? root ref cells = some y)
    (sign : Char) : (binary sign left right).inGroup? root ref cells = operate? sign x y := by
  simp only [inGroup?, hl, hr, Option.bind_eq_bind, Option.bind_some]

theorem inGroup_square {formula : Formula} {x : Quantity}
    (h : (formula.tree ref).inGroup? root ref cells = some x) :
    (formula.square.tree ref).inGroup? root ref cells = some (x.map (· ^ 2)) := by
  simp only [Formula.tree, inGroup?, h, Option.bind_eq_bind, Option.bind_some]
  exact power_two x

theorem inGroup_number (n : Nat) :
    ((Formula.number n).tree ref).inGroup? root ref cells = some (some (n : ℚ)) := by
  rw [Formula.tree, inGroup?, digitsValue, Number.toList_nat, Number.ofDigitChars_toDigits]

theorem inGroup_onePass :
    (Formula.onePass.tree ref).inGroup? root ref cells =
      some (if cells.reduceOption = [] then none
        else some (cells.reduceOption.length * spread cells.reduceOption)) := by
  have hx : Computes ref (.asDouble .column) id := computes_column.asDouble
  have hcount : (Formula.size.tree ref).inGroup? root ref cells = _ :=
    inGroup_count computes_column
  have hsum : ((Formula.sum (.asDouble .column)).tree ref).inGroup? root ref cells = _ :=
    inGroup_sum hx
  have hsquares : ((Formula.sum (.square (.asDouble .column))).tree ref).inGroup? root ref cells =
    _ := inGroup_sum hx.square
  have hsquare := inGroup_square hsum
  have hproduct := inGroup_binary hcount hsquares '*'
  by_cases hnil : cells.reduceOption = []
  · rw [if_pos hnil] at hproduct hsquare ⊢
    exact inGroup_binary hproduct hsquare '-'
  · rw [if_neg hnil] at hproduct hsquare ⊢
    rw [List.map_id] at hsquare
    rw [length_mul_spread]
    exact inGroup_binary hproduct hsquare '-'

theorem inGroup_weight (sample : Bool) :
    ((Formula.weight sample).tree ref).inGroup? root ref cells =
      some (some (cells.reduceOption.length * divisor sample cells.reduceOption)) := by
  have hcount : (Formula.size.tree ref).inGroup? root ref cells = _ :=
    inGroup_count computes_column
  cases sample with
  | false => exact inGroup_binary hcount hcount '*'
  | true =>
    have hless := inGroup_binary hcount (inGroup_number 1) '-'
    rw [Nat.cast_one] at hless
    exact inGroup_binary hcount hless '*'

theorem inGroup_nullIfZero {formula : Formula} {x : Quantity}
    (h : (formula.tree ref).inGroup? root ref cells = some x) :
    (formula.nullIfZero.tree ref).inGroup? root ref cells =
      some (if x = some 0 then none else x) := by
  have hzero : digitsValue "0" = 0 := rfl
  simp [h, hzero, applied?]

/-- The text of the variance has the variance for its value. -/
theorem inGroup_variance (sample : Bool) :
    ((Formula.variance sample).tree ref).inGroup? root ref cells =
      some (variance? sample cells.reduceOption) := by
  have hweight : ((Formula.weight sample).nullIfZero.tree ref).inGroup? root ref cells = _ :=
    inGroup_nullIfZero (inGroup_weight sample)
  have hquotient := inGroup_binary inGroup_onePass hweight '/'
  rw [Formula.tree_variance]
  refine hquotient.trans ?_
  -- without values both sums are NULL; else only the divisor can make the denominator zero
  by_cases hnil : cells.reduceOption = []
  · rw [if_pos hnil, hnil]
    cases sample <;> rfl
  · have hn : (cells.reduceOption.length : ℚ) ≠ 0 := by
      exact_mod_cast Nat.ne_of_gt (List.length_pos_iff.mpr hnil)
    rw [if_neg hnil, variance?_eq_div sample hnil]
    by_cases hd : divisor sample cells.reduceOption = 0
    · rw [if_pos hd, if_pos (by rw [hd, mul_zero])]
      rfl
    · have hne : cells.reduceOption.length * divisor sample cells.reduceOption ≠ 0 :=
        mul_ne_zero hn hd
      rw [if_neg hd, if_neg fun h => hne (Option.some.inj h), ← mul_div_mul_left _ _ hn]
      simp [operate?, hne]

/-- The guard does not choose zero over a value that is not negative. -/
theorem inGroup_guard {tree : Arithmetic} {v : Quantity}
    (h : tree.inGroup? root ref cells = some v) (hv : ∀ x ∈ v, 0 ≤ x) :
    (guardTree tree).inGroup? root ref cells = some v := by
  have hzero : digitsValue "0" = 0 := rfl
  cases v with
  | none => simp [guardTree, h]
  | some x =>
    have hx : ¬ x < 0 := not_lt.mpr (hv x rfl)
    simp [guardTree, h, hzero, hx]

theorem inGroup_sqrt {tree : Arithmetic} {v : Quantity}
    (h : tree.inGroup? root ref cells = some v) (hv : ∀ x ∈ v, 0 ≤ x) :
    (call "SQRT" tree).inGroup? root ref cells = some (v.map root) := by
  cases v with
  | none => simp [h]
  | some x =>
    have hx : ¬ x < 0 := not_lt.mpr (hv x rfl)
    simp [h, hx]

end Values

/-! ## The functions by name -/

theorem summary_of_ofName? {name : String} {function : AggregateFunction}
    (h : AggregateFunction.ofName? name = some function) (tableAlias column : String) :
    Compile.summary tableAlias (.singleColumn column name) =
      .ok (.function function ⟨tableAlias, column⟩) := by
  rw [Compile.summary, h]
  rfl

/-- Every variance that is written over a column is, for all values of the column, the sum of the
squared deviations from the mean over the number of values, or over one less for a sample, and NULL
where there are too few values. It is never negative, so every standard deviation is the root of
exactly the variance. -/
theorem closed_forms_are_textbook_statistics (root : ℚ → ℚ) (tableAlias column : String)
    (cells : List Quantity) :
    (∀ name sample,
      (name, sample) ∈ [("_var_samp", true), ("_variance", true), ("_var_pop", false)] →
      ∃ summary tree,
        Compile.summary tableAlias (.singleColumn column name) = .ok summary ∧
        read? summary.sql = some tree ∧
        tree.inGroup? root ⟨tableAlias, column⟩ cells =
          some (variance? sample cells.reduceOption)) ∧
    (∀ name sample,
      (name, sample) ∈ [("_stddev_samp", true), ("_stddev", true), ("_stddev_pop", false)] →
      ∃ summary tree,
        Compile.summary tableAlias (.singleColumn column name) = .ok summary ∧
        read? summary.sql = some (.call "SQRT" (guardTree tree)) ∧
        tree.inGroup? root ⟨tableAlias, column⟩ cells =
          some (variance? sample cells.reduceOption) ∧
        (guardTree tree).inGroup? root ⟨tableAlias, column⟩ cells =
          some (variance? sample cells.reduceOption) ∧
        (Arithmetic.call "SQRT" (guardTree tree)).inGroup? root ⟨tableAlias, column⟩ cells =
          some ((variance? sample cells.reduceOption).map root)) ∧
    ∀ sample, ∀ v ∈ variance? sample cells.reduceOption, 0 ≤ v := by
  refine ⟨?_, ?_, fun _ _ => variance?_nonneg⟩
  · intro name sample hname
    have hfunction : AggregateFunction.ofName? name = some (.variance sample) := by
      simp only [List.mem_cons, Prod.mk.injEq, List.not_mem_nil, or_false] at hname
      obtain ⟨rfl, rfl⟩ | ⟨rfl, rfl⟩ | ⟨rfl, rfl⟩ := hname <;> rfl
    exact ⟨_, _, summary_of_ofName? hfunction tableAlias column,
      AggregateFunction.read_sql _ (.variance sample), inGroup_variance sample⟩
  · intro name sample hname
    have hfunction : AggregateFunction.ofName? name = some (.deviation sample) := by
      simp only [List.mem_cons, Prod.mk.injEq, List.not_mem_nil, or_false] at hname
      obtain ⟨rfl, rfl⟩ | ⟨rfl, rfl⟩ | ⟨rfl, rfl⟩ := hname <;> rfl
    have hvariance : ((Formula.variance sample).tree ⟨tableAlias, column⟩).inGroup? root
        ⟨tableAlias, column⟩ cells = _ := inGroup_variance sample
    have hguard := inGroup_guard hvariance fun _ => variance?_nonneg
    exact ⟨_, _, summary_of_ofName? hfunction tableAlias column,
      AggregateFunction.read_sql _ (.deviation sample), hvariance, hguard,
      inGroup_sqrt hguard fun _ => variance?_nonneg⟩

/-- A sample of three values beside a NULL, and a population of one. -/
theorem measured_values_vary :
    (("_var_samp", true) ∈ [("_var_samp", true), ("_variance", true), ("_var_pop", false)] ∧
      ∃ summary tree,
        Compile.summary "t" (.singleColumn "x" "_var_samp") = .ok summary ∧
        read? summary.sql = some tree ∧
        tree.inGroup? id ⟨"t", "x"⟩ [some 1, none, some 2, some 4] = some (some (7 / 3))) ∧
    ("_stddev_pop", false) ∈ [("_stddev_samp", true), ("_stddev", true), ("_stddev_pop", false)] ∧
      ∃ summary tree,
        Compile.summary "t" (.singleColumn "x" "_stddev_pop") = .ok summary ∧
        read? summary.sql = some (.call "SQRT" (guardTree tree)) ∧
        (Arithmetic.call "SQRT" (guardTree tree)).inGroup? id ⟨"t", "x"⟩ [none, some 5] =
          some (some 0) := by
  have hthree : variance? true (List.reduceOption [some 1, none, some 2, some 4]) =
      some (7 / 3) := by decide +kernel
  have hone : (variance? false (List.reduceOption [none, some 5])).map id = some 0 := by
    decide +kernel
  refine ⟨⟨by decide, ?_⟩, by decide, ?_⟩
  · obtain ⟨summary, tree, hsummary, hread, hvalue⟩ :=
      (closed_forms_are_textbook_statistics id "t" "x" [some 1, none, some 2, some 4]).1
        "_var_samp" true (by decide)
    rw [hthree] at hvalue
    exact ⟨summary, tree, hsummary, hread, hvalue⟩
  · obtain ⟨summary, tree, hsummary, hread, -, -, hvalue⟩ :=
      (closed_forms_are_textbook_statistics id "t" "x" [none, some 5]).2.1
        "_stddev_pop" false (by decide)
    rw [hone] at hvalue
    exact ⟨summary, tree, hsummary, hread, hvalue⟩

end NestedSql
