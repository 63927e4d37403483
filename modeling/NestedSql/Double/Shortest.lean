import NestedSql.Double.Basic

/-!
# The shortest text of a double

Among the decimals that round to a double, those with the fewest digits are candidates and the
nearest of them is written. Its scientific exponent decides between the positional and the
exponential layout.
-/

namespace NestedSql.Double

/-- `digits · 10^exponent`. -/
structure Decimal where
  digits : Nat
  exponent : Int
deriving DecidableEq, Repr, Inhabited

/-- Quarters of a unit in the last place: the double lies at `4 · significand` of them, and the
reals that round to it lie between `low` and `high`. -/
structure Neighbourhood where
  low : Nat
  high : Nat
  closed : Bool

/-- Half a unit to each side, a quarter below a power of two; even significands own the ends. -/
def neighbourhood (x : Double) : Neighbourhood where
  low := if x.significand = leastFull ∧ x.exponent ≠ -1074 then 4 * x.significand - 1
    else 4 * x.significand - 2
  high := 4 * x.significand + 2
  closed := x.significand % 2 == 0

/-- The largest `p` with `10^p ≤ num / den`, found next to an estimate from the binary lengths. -/
def decimalExponent (num den : Nat) : Int :=
  let estimate := ((num.log2 : Int) - den.log2) * 30103 / 100000
  let reaches (p : Int) : Bool :=
    if 0 ≤ p then den * powerOfTen p.toNat ≤ num else den ≤ num * powerOfTen (-p).toNat
  if reaches (estimate + 1) then estimate + 1
  else if reaches estimate then estimate
  else if reaches (estimate - 1) then estimate - 1
  else estimate - 2

/-- The nearer of the two decimals with `count` digits around the double, if one rounds to it. -/
def decimalOfLength? (x : Double) (top : Int) (count : Nat) : Option Decimal :=
  let around := x.neighbourhood
  let exponent := top + 1 - count
  -- a quarter of a unit is `quarter.1 / quarter.2` steps of the decimal grid
  let binary := shifted 1 1 (x.exponent - 2)
  let quarter :=
    if 0 ≤ exponent then (binary.1, binary.2 * powerOfTen exponent.toNat)
    else (binary.1 * powerOfTen (-exponent).toNat, binary.2)
  let position := 4 * x.significand * quarter.1
  let below := position / quarter.2
  let inside (digits : Nat) : Bool :=
    let point := digits * quarter.2
    if around.closed then around.low * quarter.1 ≤ point ∧ point ≤ around.high * quarter.1
    else around.low * quarter.1 < point ∧ point < around.high * quarter.1
  let fromBelow := position - below * quarter.2
  let toAbove := (below + 1) * quarter.2 - position
  match inside below, inside (below + 1) with
  | true, true =>
    if fromBelow < toAbove ∨ (fromBelow = toAbove ∧ below % 2 = 0) then some ⟨below, exponent⟩
    else some ⟨below + 1, exponent⟩
  | true, false => some ⟨below, exponent⟩
  | false, true => some ⟨below + 1, exponent⟩
  | false, false => none

/-- The shortest decimal that rounds to a double other than zero; seventeen digits always do. -/
def shortest (x : Double) : Decimal :=
  let ratio := shifted x.significand 1 x.exponent
  let top := decimalExponent ratio.1 ratio.2
  ((List.range 17).findSome? fun n => decimalOfLength? x top (n + 1)).getD ⟨0, 0⟩

/-- Positional layout serves the scientific exponents from `-5` to `15`. -/
def isPositional (exponent : Int) : Bool := -5 ≤ exponent ∧ exponent < 16

/-- Digits with their point, a fraction always shown. -/
def positional (digits : List Char) (exponent : Int) : List Char :=
  if exponent < 0 then
    '0' :: '.' :: (List.replicate (-exponent - 1).toNat '0' ++ digits)
  else
    let whole := exponent.toNat + 1
    let padded := digits ++ List.replicate (whole - digits.length) '0'
    let fraction := padded.drop whole
    padded.take whole ++ '.' :: (if fraction.isEmpty then ['0'] else fraction)

/-- One digit, the others behind a point, and a signed exponent. -/
def exponential (digits : List Char) (exponent : Int) : List Char :=
  let sign := if exponent < 0 then '-' else '+'
  let tail := digits.drop 1
  digits.take 1 ++ (if tail.isEmpty then [] else '.' :: tail) ++
    'e' :: sign :: (toString exponent.natAbs).toList

/-- The text of a double. -/
def text (x : Double) : String :=
  let sign := if x.negative then ['-'] else []
  if x.isZero then String.ofList (sign ++ ['0', '.', '0'])
  else
    let decimal := x.shortest
    let all := (toString decimal.digits).toList
    let exponent := decimal.exponent + all.length - 1
    let digits := (all.reverse.dropWhile (· == '0')).reverse
    String.ofList (sign ++
      if isPositional exponent then positional digits exponent else exponential digits exponent)

end NestedSql.Double
