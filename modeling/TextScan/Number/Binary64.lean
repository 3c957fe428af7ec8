/-!
Binary floating-point numbers of 64 bits, by sign and code. The code is the exponent field
followed by the fraction, so codes are ordered as the magnitudes are, and the code after the
largest finite one is infinity.
-/

namespace TextScan

-- Powers of naturals are the core's, also where a library brings powers of its own.
@[default_instance 20000]
instance (priority := 20000) natPow : Pow Nat Nat := instPowNat

structure Binary64 where
  negative : Bool
  code : Nat
  code_lt : code < 2 ^ 63
deriving DecidableEq, Repr

namespace Binary64

def infinityCode : Nat := 2047 * 2 ^ 52

theorem infinityCode_lt : infinityCode < 2 ^ 63 := by decide

def ofBits (bits : Nat) : Binary64 :=
  ⟨decide (2 ^ 63 ≤ bits % 2 ^ 64), bits % 2 ^ 63, Nat.mod_lt _ (by decide)⟩

def toBits (x : Binary64) : Nat :=
  (if x.negative then 2 ^ 63 else 0) + x.code

theorem toBits_lt (x : Binary64) : x.toBits < 2 ^ 64 := by
  have h := x.code_lt
  unfold toBits
  split <;> omega

@[simp] theorem ofBits_toBits (x : Binary64) : ofBits x.toBits = x := by
  obtain ⟨negative, code, h⟩ := x
  cases negative <;> simp only [ofBits, toBits, Binary64.mk.injEq, decide_eq_true_eq,
    decide_eq_false_iff_not, Bool.false_eq_true, if_true, if_false] <;> omega

def isFinite (x : Binary64) : Bool :=
  decide (x.code < infinityCode)

def isNaN (x : Binary64) : Bool :=
  decide (infinityCode < x.code)

/-- Equality of the numbers: no NaN equals anything, and the two zeros are one number. -/
def same (x y : Binary64) : Bool :=
  !x.isNaN && !y.isNaN && (decide (x = y) || decide (x.code = 0 ∧ y.code = 0))

theorem same_self_iff {x : Binary64} : x.same x = true ↔ x.isNaN = false := by
  simp [same]

def significand (code : Nat) : Nat :=
  if code < 2 ^ 52 then code else 2 ^ 52 + code % 2 ^ 52

/-- Two to this power is the distance to the next code, counted in the smallest magnitude. -/
def scale (code : Nat) : Nat :=
  code / 2 ^ 52 - 1

/-- The magnitude of a finite code, counted in the smallest one, which is two to the power
of -1074. -/
def units (code : Nat) : Nat :=
  significand code * 2 ^ scale code

end Binary64

end TextScan
