import TextScan.Proofs.Json.Numeral
import TextScan.Proofs.Number.Nearest
import TextScan.Number.Positional

namespace TextScan.Json

open Grammar Binary64

theorem digits_toDigits (n : Nat) : Digits (Nat.toDigits 10 n) := by
  intro c hc
  exact Nat.isDigit_of_mem_toDigits (by decide) (by decide) hc

theorem toDigits_of_pos {n : Nat} (hn : 0 < n) :
    ∃ d ds, Nat.toDigits 10 n = d :: ds ∧ d ≠ '0' := by
  induction n using Nat.strongRecOn with
  | ind n ih =>
    rcases Nat.lt_or_ge n 10 with hlt | hge
    · refine ⟨Nat.digitChar n, [], Nat.toDigits_of_lt_base hlt, ?_⟩
      intro hzero
      rw [Nat.digitChar_eq_zero] at hzero
      omega
    · obtain ⟨d, ds, hsplit, hd⟩ := ih (n / 10) (by omega) (by omega)
      refine ⟨d, ds ++ [Nat.digitChar (n % 10)], ?_, hd⟩
      rw [Nat.toDigits_of_base_le (by decide) hge, hsplit]
      rfl

theorem whole_toDigits (n : Nat) : Whole (Nat.toDigits 10 n) := by
  have hdigits := digits_toDigits n
  rcases Nat.eq_zero_or_pos n with rfl | hn
  · exact .zero
  · obtain ⟨d, ds, hsplit, hd⟩ := toDigits_of_pos hn
    rw [hsplit] at hdigits ⊢
    exact .digits (hdigits d (by simp)) hd fun c hc => hdigits c (by simp [hc])

def padded (places n : Nat) : Text :=
  List.replicate (places + 1 - (Nat.toDigits 10 n).length) '0' ++ Nat.toDigits 10 n

theorem digits_padded (places n : Nat) : Digits (padded places n) := by
  intro c hc
  rcases List.mem_append.1 hc with hc | hc
  · obtain ⟨-, rfl⟩ := List.mem_replicate.1 hc
    decide
  · exact digits_toDigits n c hc

theorem ofDigitChars_padded (places n : Nat) : Nat.ofDigitChars 10 (padded places n) 0 = n := by
  rw [padded, Nat.ofDigitChars_append, Nat.ofDigitChars_replicate_zero, Nat.mul_zero,
    Nat.ofDigitChars_ten_toDigits]

theorem lt_length_padded (places n : Nat) : places < (padded places n).length := by
  rw [padded, List.length_append, List.length_replicate]
  omega

theorem whole_padded (places n : Nat) (hplaces : 0 < places) :
    Whole ((padded places n).take ((padded places n).length - places)) := by
  rcases Nat.lt_or_ge places (Nat.toDigits 10 n).length with hlong | hshort
  · have hpadded : padded places n = Nat.toDigits 10 n := by
      rw [padded, Nat.sub_eq_zero_of_le hlong]
      rfl
    have hn : 0 < n := by
      rcases Nat.eq_zero_or_pos n with rfl | hn
      · rw [Nat.toDigits_zero] at hlong
        simp only [List.length_cons, List.length_nil] at hlong
        omega
      · exact hn
    obtain ⟨d, ds, hsplit, hd⟩ := toDigits_of_pos hn
    have hdigits := digits_toDigits n
    rw [hpadded]
    rw [hsplit] at hlong hdigits ⊢
    obtain ⟨k, hk⟩ : ∃ k, (d :: ds).length - places = k + 1 :=
      ⟨(d :: ds).length - places - 1, by omega⟩
    rw [hk, List.take_succ_cons]
    refine .digits (hdigits d (by simp)) hd fun c hc => hdigits c ?_
    exact List.mem_cons_of_mem d (List.mem_of_mem_take hc)
  · have hlength : (padded places n).length - places = 1 := by
      rw [padded, List.length_append, List.length_replicate]
      omega
    obtain ⟨k, hk⟩ : ∃ k, places + 1 - (Nat.toDigits 10 n).length = k + 1 :=
      ⟨places - (Nat.toDigits 10 n).length, by omega⟩
    rw [hlength, padded, hk, List.replicate_succ]
    exact .zero

theorem fraction_padded (places n : Nat) (hplaces : 0 < places) :
    Fraction ('.' :: (padded places n).drop ((padded places n).length - places))
      ((padded places n).drop ((padded places n).length - places)) := by
  have hlt := lt_length_padded places n
  refine .digits ?_ fun c hc => digits_padded places n c (List.mem_of_mem_drop hc)
  intro hnil
  have hlength := congrArg List.length hnil
  rw [List.length_drop, List.length_nil] at hlength
  omega

def plain (negative : Bool) (whole fraction : Text) : Numeral :=
  ⟨negative, whole, fraction, false, []⟩

theorem toDecimal_plain (negative : Bool) (whole fraction : Text) :
    (plain negative whole fraction).toDecimal =
      ⟨Nat.ofDigitChars 10 (whole ++ fraction) 0, -(fraction.length : Int)⟩ := by
  rw [Numeral.toDecimal]
  simp [plain, Numeral.exponentOf]

theorem exists_toText (d : Decimal) :
    ∃ w f fraction, Whole w ∧ Fraction f fraction ∧ d.toText = w ++ f ∧
      ∀ negative, (plain negative w fraction).toDecimal.code = d.code := by
  obtain ⟨n, e | e⟩ := d
  · refine ⟨Nat.toDigits 10 (n * 10 ^ e), [], [], whole_toDigits _, .none, ?_, ?_⟩
    · rw [List.append_nil]
      rfl
    · intro negative
      rw [toDecimal_plain, List.append_nil, Nat.ofDigitChars_ten_toDigits]
      change Decimal.code ⟨n * 10 ^ e, .ofNat 0⟩ = _
      rw [Decimal.code_ofNat, Decimal.code_ofNat, Nat.pow_zero, Nat.mul_one]
  · refine ⟨_, _, _, whole_padded (e + 1) n (by omega), fraction_padded (e + 1) n (by omega),
      rfl, ?_⟩
    intro negative
    have hlt := lt_length_padded (e + 1) n
    rw [toDecimal_plain, List.take_append_drop, ofDigitChars_padded, List.length_drop]
    have hlength : (padded (e + 1) n).length - ((padded (e + 1) n).length - (e + 1)) = e + 1 := by
      omega
    rw [hlength]
    rfl

theorem exists_magnitude {code : Nat} (h : code < infinityCode) :
    ∃ w f fraction, Whole w ∧ Fraction f fraction ∧
      (if code = 0 then ['0'] else (shortest code).toText) = w ++ f ∧
      ∀ negative, (plain negative w fraction).toDecimal.code = code := by
  split
  · next hzero =>
    refine ⟨['0'], [], [], .zero, .none, rfl, ?_⟩
    intro negative
    rw [hzero]
    rfl
  · obtain ⟨w, f, fraction, hw, hf, htext, hcode⟩ := exists_toText (shortest code)
    refine ⟨w, f, fraction, hw, hf, htext, fun negative => ?_⟩
    rw [hcode, code_shortest h]

theorem exists_number_toText {x : Binary64} (hx : x.isFinite = true) :
    ∃ n, Number x.toText n ∧ n.toBinary = x := by
  have hlt : x.code < infinityCode := by simpa [isFinite] using hx
  obtain ⟨w, f, fraction, hw, hf, htext, hcode⟩ := exists_magnitude hlt
  refine ⟨plain x.negative w fraction, ?_, ?_⟩
  · rw [toText, htext]
    have hnone : w ++ f = w ++ (f ++ []) := by rw [List.append_nil]
    rw [hnone]
    cases hsign : x.negative with
    | false => exact .parts .plus hw hf .none
    | true => exact .parts .minus hw hf .none
  · obtain ⟨negative, code, hrange⟩ := x
    simp only [Numeral.toBinary, Decimal.toBinary, plain, Binary64.mk.injEq, true_and]
    exact hcode negative

end TextScan.Json
