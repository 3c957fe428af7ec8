import TextScan.Number.Decimal
/-!
The shortest decimal that reads back as a binary number. For each number of digits only the two
neighbours of the exact value can be the nearest, and each is tried by reading it.
-/

namespace TextScan.Binary64

/-- The exact value of a finite code: halving is a multiplication by five, one place down. -/
def exactDecimal (code : Nat) : Decimal :=
  if 1074 ≤ scale code then ⟨significand code * 2 ^ (scale code - 1074), 0⟩
  else
    let halvings := 1074 - scale code
    ⟨significand code * 5 ^ halvings, -(halvings : Int)⟩

/-- What has `count` digits and reads back as the code, if anything has: the one of the two
neighbours that does, the nearer if both do, and the upper if they are equally near. -/
def candidate? (code : Nat) (size count : Nat) : Option Decimal :=
  let exact := exactDecimal code
  let step := 10 ^ (size - count)
  let exponent := exact.exponent + ((size - count : Nat) : Int)
  let lower := Decimal.strip ⟨exact.digits / step, exponent⟩
  let upper := Decimal.strip ⟨exact.digits / step + 1, exponent⟩
  let nearLower := decide (2 * (exact.digits % step) < step)
  if lower.code = code ∧ (nearLower ∨ upper.code ≠ code) then some lower
  else if upper.code = code then some upper
  else none

/-- Seventeen digits are always enough; the exact value stands behind them. -/
def shortest (code : Nat) : Decimal :=
  let size := (Nat.toDigits 10 (exactDecimal code).digits).length
  ((List.range' 1 17).findSome? (candidate? code size)).getD (exactDecimal code)

end TextScan.Binary64
