/-!
# Aggregate formulas

An aggregate function over a column is a formula: arithmetic over counts and sums of the column's
values. Variance and standard deviation are written out in closed form, so that no extension of
the engine is needed, and a zero denominator gives NULL. Products bind tighter than differences,
and parentheses stand where a group is named.
-/

namespace NestedSql

/-- A value per row. -/
inductive RowTerm where
  | column
  | asDouble (term : RowTerm)
  | asText (term : RowTerm)
  | nullAsText (term : RowTerm)
  | square (term : RowTerm)
deriving DecidableEq, Repr

/-- A value per group of rows. -/
inductive Formula where
  | count (term : RowTerm)
  | sum (term : RowTerm)
  | avg (term : RowTerm)
  | max (term : RowTerm)
  | min (term : RowTerm)
  | concat (term : RowTerm)
  | concatDistinct (term : RowTerm)
  | number (value : Nat)
  | mul (left right : Formula)
  | sub (left right : Formula)
  | div (left right : Formula)
  | square (formula : Formula)
  | nullIfZero (formula : Formula)
  | zeroIfNegative (formula : Formula)
  | sqrt (formula : Formula)
  | group (formula : Formula)
deriving DecidableEq, Repr

def RowTerm.sql (column : String) : RowTerm → String
  | .column => column
  | asDouble term => "CAST(" ++ term.sql column ++ " AS DOUBLE)"
  | asText term => "CAST(" ++ term.sql column ++ " AS TEXT)"
  | nullAsText term => "COALESCE(" ++ term.sql column ++ ", 'NULL')"
  | square term => "POWER(" ++ term.sql column ++ ", 2)"

namespace Formula

def sql (column : String) : Formula → String
  | count term => "COUNT(" ++ term.sql column ++ ")"
  | sum term => "SUM(" ++ term.sql column ++ ")"
  | avg term => "AVG(" ++ term.sql column ++ ")"
  | max term => "MAX(" ++ term.sql column ++ ")"
  | min term => "MIN(" ++ term.sql column ++ ")"
  | concat term => "GROUP_CONCAT(" ++ term.sql column ++ ")"
  | concatDistinct term => "GROUP_CONCAT(DISTINCT " ++ term.sql column ++ ")"
  | number value => toString value
  | mul left right => left.sql column ++ " * " ++ right.sql column
  | sub left right => left.sql column ++ " - " ++ right.sql column
  | div left right => left.sql column ++ " / " ++ right.sql column
  | square formula => "POWER(" ++ formula.sql column ++ ", 2)"
  | nullIfZero formula => "NULLIF(" ++ formula.sql column ++ ", 0)"
  | zeroIfNegative formula =>
    "CASE WHEN " ++ formula.sql column ++ " < 0 THEN 0 ELSE " ++ formula.sql column ++ " END"
  | sqrt formula => "SQRT(" ++ formula.sql column ++ ")"
  | group formula => "(" ++ formula.sql column ++ ")"

/-- The number of values that are not NULL. -/
def size : Formula := count .column

/-- `(n·Σx² − (Σx)²) / (n·(n−1))` over a sample, `/ n²` over a population. -/
def variance (sample : Bool) : Formula :=
  let x := RowTerm.asDouble .column
  let spread := group (sub (mul size (sum (.square x))) (square (sum x)))
  let denominator := mul size (if sample then group (sub size (number 1)) else size)
  group (div spread (nullIfZero denominator))

/-- The root of the variance, which rounding may have pushed below zero. -/
def deviation (sample : Bool) : Formula := sqrt (zeroIfNegative (variance sample))

end Formula

/-- An aggregate function of one column. -/
inductive AggregateFunction where
  | sum
  | avg
  | max
  | min
  | deviation (sample : Bool)
  | variance (sample : Bool)
  | concat
  | concatDistinct
  | concatNulls
deriving DecidableEq, Repr

namespace AggregateFunction

/-- The names of the functions; two have a short form. -/
def table : List (String × AggregateFunction) :=
  [("_sum", sum), ("_avg", avg), ("_max", max), ("_min", min),
    ("_stddev", deviation true), ("_stddev_samp", deviation true),
    ("_stddev_pop", deviation false), ("_variance", variance true),
    ("_var_samp", variance true), ("_var_pop", variance false), ("_group_concat", concat),
    ("_group_concat_distinct", concatDistinct), ("_group_concat_include_nulls", concatNulls)]

/-- The function with this name. -/
def ofName? (name : String) : Option AggregateFunction := table.lookup name

/-- The formula of the function. -/
def formula : AggregateFunction → Formula
  | sum => .sum .column
  | avg => .avg .column
  | max => .max .column
  | min => .min .column
  | deviation sample => .deviation sample
  | variance sample => .variance sample
  | concat => .concat (.asText .column)
  | concatDistinct => .concatDistinct (.asText .column)
  | concatNulls => .concat (.nullAsText (.asText .column))

/-- The function over a column. -/
def sql (function : AggregateFunction) (column : String) : String := function.formula.sql column

end AggregateFunction

end NestedSql
