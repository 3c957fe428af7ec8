import TextScan.CharClass.Basic

namespace TextScan.CharClass

def Spans.points (s : Spans) : List Nat :=
  s.flatMap fun (low, high) => List.range' low (high + 1 - low)

theorem Spans.mem_points_of_contains {s : Spans} {n : Nat} (h : s.contains n = true) :
    n ∈ s.points := by
  obtain ⟨⟨low, high⟩, hmem, hlow, hhigh⟩ := Spans.exists_of_contains h
  refine List.mem_flatMap.2 ⟨(low, high), hmem, ?_⟩
  rw [List.mem_range'_1]
  constructor
  · exact hlow
  · change n ≤ high at hhigh
    change low ≤ n at hlow
    omega

theorem eq_false_of_isBlank {q : Char → Bool}
    (hq : ∀ n ∈ blankSpans.points, q (Char.ofNat n) = false) {c : Char}
    (hc : isBlank c = true) : q c = false := by
  have h := hq c.toNat (Spans.mem_points_of_contains hc)
  rwa [Char.ofNat_toNat] at h

theorem isAlphanumeric_of_isBlank {c : Char} (hc : isBlank c = true) :
    isAlphanumeric c = false :=
  eq_false_of_isBlank (by decide +kernel) hc

theorem isBlank_of_isAlphanumeric {c : Char} (hc : isAlphanumeric c = true) :
    isBlank c = false := by
  cases hb : isBlank c with
  | false => rfl
  | true => rw [isAlphanumeric_of_isBlank hb] at hc; exact absurd hc (by simp)

theorem isBlank_of_isAlphabetic {c : Char} (hc : isAlphabetic c = true) : isBlank c = false :=
  isBlank_of_isAlphanumeric (isAlphanumeric_of_isAlphabetic hc)

end TextScan.CharClass
