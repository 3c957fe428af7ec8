import TextScan.Number.Rounding

namespace TextScan

/-- The number `digits` times ten to the power of `exponent`. -/
structure Decimal where
  digits : Nat
  exponent : Int
deriving DecidableEq, Repr

namespace Decimal

/-- The code of the nearest binary number. Powers of ten that are out of range for sure are not
worked out: ten is above two to the power of three, so from an exponent of 342 on every number
but zero is infinite, and far enough below zero every number is less than half the smallest. -/
def code (d : Decimal) : Nat :=
  if d.digits = 0 then 0
  else match d.exponent with
    | .ofNat e =>
      if 1024 ≤ 3 * e then Binary64.infinityCode
      else Binary64.nearestCode (d.digits * 10 ^ e) 1
    | .negSucc e =>
      if d.digits.log2 + 1076 ≤ 3 * (e + 1) then 0
      else Binary64.nearestCode d.digits (10 ^ (e + 1))

theorem code_lt (d : Decimal) : d.code < 2 ^ 63 := by
  have hinf := Binary64.infinityCode_lt
  unfold code
  split
  · decide
  · split
    · split
      · exact hinf
      · exact Binary64.nearestCode_lt _ _
    · split
      · decide
      · exact Binary64.nearestCode_lt _ _

def toBinary (negative : Bool) (d : Decimal) : Binary64 :=
  ⟨negative, d.code, d.code_lt⟩

def strip (d : Decimal) : Decimal :=
  if h : d.digits = 0 then d
  else if d.digits % 10 = 0 then strip ⟨d.digits / 10, d.exponent + 1⟩
  else d
termination_by d.digits
decreasing_by exact Nat.div_lt_self (Nat.pos_of_ne_zero h) (by decide)

end Decimal

end TextScan
