import TextScan.Number.Shortest

namespace TextScan

namespace Binary64

variable {code num den : Nat}

theorem significand_of_lt (h : code < 2 ^ 52) : significand code = code ∧ scale code = 0 := by
  have hdiv : code / 2 ^ 52 = 0 := Nat.div_eq_of_lt h
  rw [significand, scale, if_pos h, hdiv]
  exact ⟨rfl, rfl⟩

theorem significand_of_le (h : 2 ^ 52 ≤ code) :
    2 ^ 52 ≤ significand code ∧ significand code < 2 ^ 53 ∧ 1 ≤ code / 2 ^ 52 ∧
      significand code = 2 ^ 52 + code % 2 ^ 52 := by
  have hmod : code % 2 ^ 52 < 2 ^ 52 := Nat.mod_lt _ (by decide)
  have hsig : significand code = 2 ^ 52 + code % 2 ^ 52 := if_neg (by omega)
  refine ⟨by omega, by omega, (Nat.le_div_iff_mul_le (by decide)).2 (by omega), hsig⟩

theorem scale_add_significand (code : Nat) : scale code * 2 ^ 52 + significand code = code := by
  rcases Nat.lt_or_ge code (2 ^ 52) with h | h
  · obtain ⟨hsig, hscale⟩ := significand_of_lt h
    rw [hsig, hscale]
    omega
  · obtain ⟨-, -, hdiv, hsig⟩ := significand_of_le h
    have hsplit := Nat.div_add_mod code (2 ^ 52)
    rw [scale, hsig]
    omega

theorem log2_units (code : Nat) : (units code).log2 - 52 = scale code := by
  rcases Nat.lt_or_ge code (2 ^ 52) with h | h
  · obtain ⟨hsig, hscale⟩ := significand_of_lt h
    rw [units, hsig, hscale, Nat.pow_zero, Nat.mul_one]
    by_cases hzero : code = 0
    · rw [hzero, Nat.log2_zero]
    · have hlog := (Nat.log2_lt hzero).2 h
      omega
  · obtain ⟨hlow, hhigh, -, -⟩ := significand_of_le h
    have hlog : (units code).log2 = 52 + scale code := by
      have hpos := Nat.two_pow_pos (scale code)
      rw [units, Nat.log2_eq_iff (Nat.mul_ne_zero (by omega) (by omega))]
      constructor
      · rw [Nat.pow_add]
        exact Nat.mul_le_mul_right _ hlow
      · rw [Nat.add_right_comm, Nat.pow_add]
        exact Nat.mul_lt_mul_of_pos_right hhigh hpos
    omega

theorem nearestCode_units (hcode : code < infinityCode) (hden : 0 < den)
    (h : num * 2 ^ 1074 = units code * den) : nearestCode num den = code := by
  have hround : roundHalfEven (units code * den) (den * 2 ^ scale code) = significand code := by
    have hsplit : units code * den = significand code * (den * 2 ^ scale code) := by
      rw [units, Nat.mul_assoc, Nat.mul_comm (2 ^ scale code)]
    rw [hsplit]
    exact roundHalfEven_mul _ (Nat.mul_pos hden (Nat.two_pow_pos _))
  rw [nearestCode, h]
  simp only [Nat.mul_div_cancel _ hden, log2_units, hround, scale_add_significand]
  exact Nat.min_eq_left (Nat.le_of_lt hcode)

theorem le_roundHalfEven (num den : Nat) : num / den ≤ roundHalfEven num den := by
  rw [roundHalfEven]
  split <;> omega

theorem nearestCode_of_large {k : Nat} (hk : 2098 ≤ k) (hden : 0 < den)
    (h : 2 ^ k * den ≤ num * 2 ^ 1074) : nearestCode num den = infinityCode := by
  rw [nearestCode]
  generalize num * 2 ^ 1074 = scaled at h ⊢
  have hquotient : 2 ^ k ≤ scaled / den := (Nat.le_div_iff_mul_le hden).2 h
  have hne : scaled / den ≠ 0 := by
    have hpos := Nat.two_pow_pos k
    omega
  have hlog : k ≤ (scaled / den).log2 := (Nat.le_log2 hne).2 hquotient
  generalize hshift : (scaled / den).log2 - 52 = shift
  have hround : 2 ^ 52 ≤ roundHalfEven scaled (den * 2 ^ shift) := by
    refine Nat.le_trans ?_ (le_roundHalfEven _ _)
    rw [← Nat.div_div_eq_div_mul, Nat.le_div_iff_mul_le (Nat.two_pow_pos _), ← Nat.pow_add]
    have hsum : 52 + shift = (scaled / den).log2 := by omega
    rw [hsum]
    exact Nat.log2_self_le hne
  refine Nat.min_eq_right ?_
  rw [infinityCode]
  omega

theorem nearestCode_of_small (h : 2 * (num * 2 ^ 1074) < den) : nearestCode num den = 0 := by
  rw [nearestCode]
  generalize num * 2 ^ 1074 = scaled at h ⊢
  have hquotient : scaled / den = 0 := Nat.div_eq_of_lt (by omega)
  have hmod : scaled % den = scaled := Nat.mod_eq_of_lt (by omega)
  have hround : roundHalfEven scaled (den * 2 ^ 0) = 0 := by
    rw [Nat.pow_zero, Nat.mul_one, roundHalfEven]
    simp only [hquotient, hmod]
    exact if_neg (by omega)
  rw [hquotient, Nat.log2_zero]
  simp only [Nat.zero_sub, Nat.zero_mul, Nat.zero_add, hround]
  exact Nat.zero_min _

theorem nearestCode_zero (hden : 0 < den) : nearestCode 0 den = 0 := by
  refine nearestCode_of_small ?_
  generalize 2 ^ 1074 = unit
  omega

end Binary64

namespace Decimal

open Binary64

theorem two_pow_le_ten_pow (e : Nat) : 2 ^ (3 * e) ≤ 10 ^ e := by
  rw [Nat.pow_mul]
  exact Nat.pow_le_pow_left (by decide) e

theorem two_pow_le_mul {digits : Nat} (hne : digits ≠ 0) (e k : Nat) :
    2 ^ (3 * e + k) * 1 ≤ digits * 10 ^ e * 2 ^ k := by
  have hsplit : 2 ^ (3 * e + k) = 2 ^ (3 * e) * 2 ^ k := Nat.pow_add 2 (3 * e) k
  calc 2 ^ (3 * e + k) * 1 = 2 ^ (3 * e) * 2 ^ k := by rw [Nat.mul_one, hsplit]
    _ ≤ 10 ^ e * 2 ^ k := Nat.mul_le_mul_right _ (two_pow_le_ten_pow e)
    _ ≤ digits * 10 ^ e * 2 ^ k := by
        refine Nat.mul_le_mul_right _ ?_
        exact Nat.le_mul_of_pos_left _ (Nat.pos_of_ne_zero hne)

theorem two_mul_lt_two_pow (digits k : Nat) :
    2 * (digits * 2 ^ k) < 2 ^ (digits.log2 + (k + 2)) := by
  have hsplit : 2 ^ (digits.log2 + (k + 2)) = 2 * (2 ^ (digits.log2 + 1) * 2 ^ k) := by
    rw [← Nat.pow_add, ← Nat.pow_succ']
    congr 1
    omega
  rw [hsplit]
  refine Nat.mul_lt_mul_of_pos_left ?_ (by decide)
  exact Nat.mul_lt_mul_of_pos_right Nat.lt_log2_self (Nat.two_pow_pos k)

theorem code_ofNat (digits e : Nat) :
    code ⟨digits, .ofNat e⟩ = nearestCode (digits * 10 ^ e) 1 := by
  rw [code]
  split
  · next hzero =>
    change digits = 0 at hzero
    rw [hzero, Nat.zero_mul, nearestCode_zero Nat.one_pos]
  · next hne =>
    change digits ≠ 0 at hne
    simp only
    split
    · next hlarge =>
      have hk : 2098 ≤ 3 * e + 1074 := by omega
      refine (nearestCode_of_large hk Nat.one_pos ?_).symm
      exact two_pow_le_mul hne e 1074
    · rfl

theorem code_negSucc (digits e : Nat) :
    code ⟨digits, .negSucc e⟩ = nearestCode digits (10 ^ (e + 1)) := by
  rw [code]
  split
  · next hzero =>
    change digits = 0 at hzero
    rw [hzero, nearestCode_zero (Nat.pow_pos (by decide))]
  · next hne =>
    simp only
    split
    · next hsmall =>
      refine (nearestCode_of_small ?_).symm
      calc 2 * (digits * 2 ^ 1074) < 2 ^ (digits.log2 + 1076) := two_mul_lt_two_pow digits 1074
        _ ≤ 2 ^ (3 * (e + 1)) := Nat.pow_le_pow_right (by decide) hsmall
        _ ≤ 10 ^ (e + 1) := two_pow_le_ten_pow (e + 1)
    · rfl

end Decimal

namespace Binary64

open Decimal

variable {code : Nat}

theorem exactDecimal_of_le (h : 1074 ≤ scale code) :
    exactDecimal code = ⟨significand code * 2 ^ (scale code - 1074), .ofNat 0⟩ :=
  if_pos h

theorem exactDecimal_of_lt (h : scale code < 1074) :
    exactDecimal code =
      ⟨significand code * 5 ^ (1074 - scale code), .negSucc (1073 - scale code)⟩ := by
  rw [exactDecimal, if_neg (by omega)]
  have hneg : -((1074 - scale code : Nat) : Int) = .negSucc (1073 - scale code) := by
    omega
  simp only [hneg]

theorem code_exactDecimal (h : code < infinityCode) : (exactDecimal code).code = code := by
  rcases Nat.lt_or_ge (scale code) 1074 with hscale | hscale
  · rw [exactDecimal_of_lt hscale, code_negSucc]
    refine nearestCode_units h (Nat.pow_pos (by decide)) ?_
    obtain ⟨k, hk⟩ : ∃ k, scale code + k = 1074 := ⟨1074 - scale code, by omega⟩
    have hhalvings : 1074 - scale code = k := by omega
    have hplaces : 1073 - scale code + 1 = k := by omega
    have hunit : 2 ^ (scale code + k) = 2 ^ scale code * 2 ^ k := Nat.pow_add 2 (scale code) k
    have hten : 10 ^ k = 2 ^ k * 5 ^ k := Nat.mul_pow 2 5 k
    rw [hhalvings, hplaces, ← hk, hunit, hten, units]
    ac_rfl
  · rw [exactDecimal_of_le hscale, code_ofNat]
    refine nearestCode_units h Nat.one_pos ?_
    have hscales : 2 ^ (scale code - 1074) * 2 ^ 1074 = 2 ^ scale code :=
      by rw [Nat.pow_sub_mul_pow 2 hscale]
    rw [Nat.pow_zero, Nat.mul_one, Nat.mul_one, units, Nat.mul_assoc (significand code), hscales]

theorem code_of_candidate? {size count : Nat} {d : Decimal}
    (h : candidate? code size count = some d) : d.code = code := by
  unfold candidate? at h
  simp only at h
  split at h
  · next hlower =>
    obtain rfl := Option.some.inj h
    exact hlower.1
  · split at h
    · next hupper =>
      obtain rfl := Option.some.inj h
      exact hupper
    · simp at h

theorem code_shortest (h : code < infinityCode) : (shortest code).code = code := by
  rw [shortest]
  generalize hfound : (List.range' 1 17).findSome? _ = found
  cases found with
  | none => exact code_exactDecimal h
  | some d =>
    obtain ⟨count, -, hcount⟩ := List.exists_of_findSome?_eq_some hfound
    exact code_of_candidate? hcount

end Binary64

end TextScan
