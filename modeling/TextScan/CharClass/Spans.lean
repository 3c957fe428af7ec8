import TextScan.Text.Basic

namespace TextScan.CharClass

abbrev Spans := List (Nat × Nat)

def Spans.contains : Spans → Nat → Bool
  | [], _ => false
  | (low, high) :: spans, n =>
    if n < low then false
    else if n ≤ high then true
    else Spans.contains spans n

theorem Spans.exists_of_contains {s : Spans} {n : Nat} (h : s.contains n = true) :
    ∃ span ∈ s, span.1 ≤ n ∧ n ≤ span.2 := by
  induction s with
  | nil => simp [contains] at h
  | cons span spans ih =>
    obtain ⟨low, high⟩ := span
    unfold contains at h
    split at h
    · simp at h
    · split at h
      · exact ⟨(low, high), by simp, by omega, by omega⟩
      · obtain ⟨found, hmem, hle⟩ := ih h
        exact ⟨found, by simp [hmem], hle⟩

end TextScan.CharClass
