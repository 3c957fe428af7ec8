import TextScan.Proofs.Json.RoundTrip
import TextScan.Proofs.Json.Unfinished

namespace TextScan.Json.Quoted

open Grammar Text

variable {t u w s rest : Text}

theorem read_eq_ok_iff :
    read t = .ok (s, rest) ↔ ∃ w, Spellings w s ∧ t = '"' :: (w ++ '"' :: rest) := by
  constructor
  · intro h
    unfold read at h
    split at h
    · obtain ⟨w, hw, rfl⟩ := body_eq_ok_iff.1 h
      exact ⟨w, hw, rfl⟩
    · cases h
  · rintro ⟨w, hw, rfl⟩
    exact body_append hw

/-- What stands behind a `u` if it names a surrogate without its partner: a low one, or a high one
that no escape of a low one follows. -/
inductive Unpaired : Text → Prop
  | low {u t : Text} {n : Nat} : HexUnit u n → 0xDC00 ≤ n → n < 0xE000 → Unpaired (u ++ t)
  | high {u t : Text} {n : Nat} : HexUnit u n → 0xD800 ≤ n → n < 0xDC00 →
      (∀ w m z, HexUnit w m → t = '\\' :: 'u' :: (w ++ z) → ¬ (0xDC00 ≤ m ∧ m < 0xE000)) →
        Unpaired (u ++ t)

theorem error_of_notLow {second : Text} {high : Nat} (hu : HexUnit u high)
    (hhigh : isHighSurrogate high = true)
    (hlow : ∀ w m z, HexUnit w m → second = w ++ z → isLowSurrogate m = false) :
    ∃ fault, codeEscape (u ++ '\\' :: 'u' :: second) = .error fault := by
  rw [codeEscape_of_mark hu hhigh]
  cases hunit : unit second with
  | error fault => exact ⟨fault, rfl⟩
  | ok r =>
    obtain ⟨m, last⟩ := r
    obtain ⟨w, hw, rfl⟩ := exists_hexUnit hunit
    exact ⟨_, if_neg (by rw [hlow w m last hw rfl]; decide)⟩

theorem error_of_unpaired (h : Unpaired t) : ∃ fault, codeEscape t = .error fault := by
  cases h with
  | low hu hle hlt =>
    exact ⟨_, codeEscape_of_isLowSurrogate (unit_append hu) (isLowSurrogate_iff.2 ⟨hle, hlt⟩)⟩
  | @high u t n hu hle hlt hnext =>
    have hhigh := isHighSurrogate_iff.2 ⟨hle, hlt⟩
    by_cases hmark : ['\\', 'u'] <+: t
    · obtain ⟨second, rfl⟩ := hmark
      refine error_of_notLow hu hhigh ?_
      intro w m z hw hsecond
      rw [Bool.eq_false_iff, Ne, isLowSurrogate_iff]
      exact hnext w m z hw (congrArg (['\\', 'u'] ++ ·) hsecond)
    · exact ⟨_, codeEscape_of_noMark hu hhigh hmark⟩

theorem body_spellings (h : Spellings w s) (t : Text) :
    body (w ++ t) = (body t).map fun (s', last) => (s ++ s', last) := by
  induction h with
  | nil => cases hbody : body t <;> simp [hbody, Except.map]
  | cons hc _ ih =>
    rw [List.append_assoc, body_spelling hc, ih]
    cases body t <;> rfl

theorem reads_exactly_spellings :
    (∀ t s rest, read t = .ok (s, rest) ↔
      ∃ w, Spellings w s ∧ t = '"' :: (w ++ '"' :: rest)) ∧
    (∀ s, ∃ w, Spellings w s) ∧
    ∀ w s t, Spellings w s → Unpaired t →
      ∃ fault, read ('"' :: (w ++ '\\' :: 'u' :: t)) = .error fault := by
  refine ⟨fun t s rest => read_eq_ok_iff, ?_, ?_⟩
  · intro s
    obtain ⟨w, hw, -⟩ := quote_head (quote_write s)
    exact ⟨w, hw⟩
  · intro w s t hw ht
    obtain ⟨fault, hfault⟩ := error_of_unpaired ht
    have hescape : escape ('u' :: t) = .error fault := hfault
    refine ⟨fault, ?_⟩
    change body (w ++ '\\' :: 'u' :: t) = _
    rw [body_spellings hw, body_of_escape_error hescape]
    rfl

end TextScan.Json.Quoted
