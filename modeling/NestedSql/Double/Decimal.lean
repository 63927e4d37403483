import NestedSql.Double.Basic

/-!
# Reading decimals

A decimal `significand · 10^exponent` becomes a double by one product or quotient with a power of
ten, after at most two quotients by `10^308`. The significand has at most 64 bits; digits that do
not fit were dropped by the scanner. This is exact for short decimals and within a few units in
the last place for all.
-/

namespace NestedSql.Double

/-- The double nearest to a power of ten, up to `10^308`. -/
def powerOfTen? (n : Nat) : Option Double := ofRatio? false (powerOfTen n) 1

/-- One quotient by `10^308` while the exponent lies below `-308`. -/
def lower? (part : Double × Int) : Option (Double × Int) :=
  if part.2 < -308 then do
    let quotient ← part.1.div? (← powerOfTen? 308)
    return (quotient, part.2 + 308)
  else
    some part

/-- The double that the decimal stands for; nothing if it is too large for one. -/
def ofDecimal? (significand : Nat) (exponent : Int) : Option Double := do
  let (x, rest) ← lower? (← lower? (← ofRatio? false significand 1, exponent))
  if x.isZero ∨ rest < -308 then return zero false
  else if 308 < rest then none
  else if 0 ≤ rest then x.mul? (← powerOfTen? rest.toNat)
  else x.div? (← powerOfTen? (-rest).toNat)

end NestedSql.Double
