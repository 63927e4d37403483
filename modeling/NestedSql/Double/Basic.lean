/-!
# Finite double-precision numbers

A double is a sign and `significand · 2^exponent` in its one canonical form. Rounding takes an
exact ratio to the nearest double, halves to the even neighbour, and answers nothing past the
largest one. Infinities and NaN have no place here: no document holds them.
-/

namespace NestedSql

/-- The least significand of 53 bits. -/
abbrev Double.leastFull : Nat := 4503599627370496

/-- The least significand of 54 bits, which no double has. -/
abbrev Double.pastFull : Nat := 9007199254740992

/-- A double whose significand fills 53 bits, or which has the least exponent. -/
structure Double where
  negative : Bool
  significand : Nat
  exponent : Int
  canonical :
    (Double.leastFull ≤ significand ∧ significand < Double.pastFull ∧
        -1074 ≤ exponent ∧ exponent ≤ 971) ∨
      (significand < Double.leastFull ∧ exponent = -1074)
deriving DecidableEq

namespace Double

/-- The double with these parts, if they are canonical. -/
def ofParts? (negative : Bool) (significand : Nat) (exponent : Int) : Option Double :=
  if h : (leastFull ≤ significand ∧ significand < pastFull ∧ -1074 ≤ exponent ∧ exponent ≤ 971) ∨
      (significand < leastFull ∧ exponent = -1074) then
    some ⟨negative, significand, exponent, h⟩
  else
    none

/-- Zero with a sign. -/
def zero (negative : Bool) : Double := ⟨negative, 0, -1074, Or.inr ⟨by decide, rfl⟩⟩

instance : Inhabited Double := ⟨zero false⟩

def isZero (x : Double) : Bool := x.significand == 0

def neg (x : Double) : Double := { x with negative := !x.negative }

/-- The natural number nearest to `num / den`, a half going to the even neighbour. -/
def roundDiv (num den : Nat) : Nat :=
  let quotient := num / den
  let rest := num % den
  if 2 * rest < den then quotient
  else if den < 2 * rest then quotient + 1
  else quotient + quotient % 2

/-- `2^n`. -/
def powerOfTwo (n : Nat) : Nat := Nat.pow 2 n

/-- `10^n`. -/
def powerOfTen (n : Nat) : Nat := Nat.pow 10 n

/-- Numerator and denominator of `num / den · 2^shift`. -/
def shifted (num den : Nat) (shift : Int) : Nat × Nat :=
  if 0 ≤ shift then (num * powerOfTwo shift.toNat, den)
  else (num, den * powerOfTwo (-shift).toNat)

/-- The double nearest to `num / den`; nothing past the largest. -/
def ofRatio? (negative : Bool) (num den : Nat) : Option Double :=
  if num = 0 then some (zero negative)
  else
    let low : Int := max ((num.log2 : Int) - den.log2 - 53) (-1074)
    let grid := shifted num den (-low)
    let exponent := if grid.1 / grid.2 < pastFull then low else low + 1
    let grid := shifted num den (-exponent)
    let significand := roundDiv grid.1 grid.2
    if significand = pastFull then ofParts? negative leastFull (exponent + 1)
    else ofParts? negative significand exponent

/-- The nearest double to the exact product. -/
def mul? (x y : Double) : Option Double :=
  let ratio := shifted (x.significand * y.significand) 1 (x.exponent + y.exponent)
  ofRatio? (x.negative != y.negative) ratio.1 ratio.2

/-- The nearest double to the exact quotient by a divisor other than zero. -/
def div? (x y : Double) : Option Double :=
  let ratio := shifted x.significand y.significand (x.exponent - y.exponent)
  ofRatio? (x.negative != y.negative) ratio.1 ratio.2

end Double

end NestedSql
