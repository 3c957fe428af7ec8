import TextScan.Number.Binary64

namespace TextScan

def roundHalfEven (num den : Nat) : Nat :=
  let quotient := num / den
  let twice := 2 * (num % den)
  if den < twice ∨ (twice = den ∧ quotient % 2 = 1) then quotient + 1 else quotient

theorem roundHalfEven_mul (n : Nat) {den : Nat} (h : 0 < den) :
    roundHalfEven (n * den) den = n := by
  simp [roundHalfEven, Nat.mul_div_cancel n h]
  omega

namespace Binary64

/-- The code of the number nearest to a quotient. Between two powers of two the numbers are
evenly spaced, and rounding up past the last of them arrives at the first code above, so one
rounding at the spacing of the quotient's own range is enough. -/
def nearestCode (num den : Nat) : Nat :=
  let scaled := num * 2 ^ 1074
  let shift := (scaled / den).log2 - 52
  min (shift * 2 ^ 52 + roundHalfEven scaled (den * 2 ^ shift)) infinityCode

theorem nearestCode_lt (num den : Nat) : nearestCode num den < 2 ^ 63 :=
  Nat.lt_of_le_of_lt (Nat.min_le_right _ _) infinityCode_lt

end Binary64

end TextScan
