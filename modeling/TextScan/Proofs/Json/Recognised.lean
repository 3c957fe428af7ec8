import TextScan.Program.Run
import TextScan.Proofs.Json.Numeral
import TextScan.Proofs.Json.Scalar

namespace TextScan.Json.Numeral

open Grammar Text Cursor Program

variable {p : Char → Bool} {t u run rest : Text} {c : Char}

section Steps

def takeOne (p : Char → Bool) (t : Text) : Char × Text :=
  ((takeOne? p t).1.getD absent, (takeOne? p t).2)

theorem takeOne_cons_of_pos (hc : p c = true) : takeOne p (c :: t) = (c, t) := by
  simp [takeOne, takeOne?, Cursor.rest, Cursor.withRest, hc]

theorem takeOne_of_stops (ht : Stops p t) : takeOne p t = (absent, t) := by
  cases t with
  | nil => rfl
  | cons c t => simp [takeOne, takeOne?, Cursor.rest, ht.head]

-- The absent character is in no class that is looked for, so where it stands in a text it is no
-- more of a match than the end is.
theorem takeOne_cases (habsent : p absent = false) (t : Text) :
    (∃ c u, t = c :: u ∧ p c = true ∧ c ≠ absent ∧ takeOne p t = (c, u)) ∨
      Stops p t ∧ takeOne p t = (absent, t) := by
  by_cases ht : Stops p t
  · exact .inr ⟨ht, takeOne_of_stops ht⟩
  · cases t with
    | nil => exact absurd stops_nil ht
    | cons c u =>
      have hc : p c = true := by simpa using ht
      refine .inl ⟨c, u, rfl, hc, ?_, takeOne_cons_of_pos hc⟩
      rintro rfl
      rw [habsent] at hc
      cases hc

def passDigits (t : Text) : Option Text :=
  let (digits, rest) := takeWhile Char.isDigit t
  if digits.isEmpty then none else some rest

def passWhole (t : Text) : Option Text :=
  let (c, rest) := takeOne Char.isDigit t
  if c = absent then none
  else if c = '0' then some rest
  else some (skipWhile Char.isDigit rest)

def passFraction (t : Text) : Option Text :=
  let (found, rest) := skipChar '.' t
  if found then passDigits rest else some rest

def isExponentMark (c : Char) : Bool :=
  c == 'e' || c == 'E'

def passExponent (t : Text) : Option Text :=
  let (e, rest) := takeOne isExponentMark t
  if e = absent then some rest
  else passDigits (skipOneIf (fun c => c == '+' || c == '-') rest)

def isNumeral (t : Text) : Bool :=
  (do
    let t ← passWhole (skipOneIf (· == '-') t)
    let t ← passFraction t
    passExponent t).any isAtEnd

theorem passDigits_eq (t : Text) : passDigits t = (digits? t).map Prod.snd := by
  unfold passDigits digits?
  cases hds : t.takeWhile Char.isDigit with
  | nil => simp [takeWhile, Cursor.rest, hds]
  | cons d ds => simp [takeWhile, Cursor.rest, Cursor.withRest, hds]

theorem skipMinus_eq (t : Text) : skipOneIf (· == '-') t = (sign t).2 := by
  unfold sign
  split
  · rfl
  · next hminus =>
    cases t with
    | nil => rfl
    | cons c t =>
      have hc : c ≠ '-' := by
        rintro rfl
        exact hminus t rfl
      simp [skipOneIf, takeOne?, Cursor.rest, hc]

theorem skipExponentSign_eq (t : Text) :
    skipOneIf (fun c => c == '+' || c == '-') t = (exponentSign t).2 := by
  unfold exponentSign
  split
  · rfl
  · rfl
  · next hminus hplus =>
    cases t with
    | nil => rfl
    | cons c t =>
      have hc : c ≠ '+' ∧ c ≠ '-' := by
        constructor
        · rintro rfl
          exact hplus t rfl
        · rintro rfl
          exact hminus t rfl
      simp [skipOneIf, takeOne?, Cursor.rest, hc]

theorem whole?_cons_of_ne (hc : c ≠ '0') : whole? (c :: t) = digits? (c :: t) := by
  unfold whole?
  split
  · next heq => exact absurd (List.cons.inj heq).1 hc
  · rfl

theorem passWhole_eq (t : Text) : passWhole t = (whole? t).map Prod.snd := by
  rcases takeOne_cases (p := Char.isDigit) (by decide) t with
    ⟨c, u, rfl, hc, hne, htake⟩ | ⟨ht, htake⟩
  · simp only [passWhole, htake, if_neg hne]
    split
    · next hzero =>
      subst hzero
      rfl
    · next hzero =>
      rw [whole?_cons_of_ne hzero, digits?, List.takeWhile_cons_of_pos hc,
        List.dropWhile_cons_of_pos hc]
      rfl
  · simp only [passWhole, htake, if_pos]
    cases t with
    | nil => rfl
    | cons c t =>
      have hzero : c ≠ '0' := by
        rintro rfl
        exact absurd ht.head (by decide)
      rw [whole?_cons_of_ne hzero, digits?, ht.takeWhile]
      rfl

theorem passFraction_eq (t : Text) : passFraction t = (fraction? t).map Prod.snd := by
  unfold fraction?
  split
  · next u => exact passDigits_eq u
  · next hpoint =>
    cases t with
    | nil => rfl
    | cons c t =>
      have hc : c ≠ '.' := by
        rintro rfl
        exact hpoint t rfl
      simp [passFraction, skipChar, takeOne?, Cursor.rest, hc]

theorem passExponent_eq (t : Text) : passExponent t = (exponent? t).map Prod.snd := by
  rcases takeOne_cases (p := isExponentMark) (by decide) t with
    ⟨c, u, rfl, hc, hne, htake⟩ | ⟨ht, htake⟩
  · have hmark : c = 'e' ∨ c = 'E' := by simpa [isExponentMark] using hc
    simp only [passExponent, htake, if_neg hne, exponent?, if_pos hmark, skipExponentSign_eq,
      passDigits_eq]
    cases digits? (exponentSign u).2 <;> rfl
  · simp only [passExponent, htake, if_pos]
    cases t with
    | nil => rfl
    | cons c t =>
      have hmark : ¬ (c = 'e' ∨ c = 'E') := by simpa [isExponentMark] using ht.head
      rw [exponent?, if_neg hmark]
      rfl

theorem isNumeral_eq (t : Text) : isNumeral t = (ofText? t).isSome := by
  rw [isNumeral, ofText?, skipMinus_eq, passWhole_eq]
  rcases sign t with ⟨negative, t₁⟩
  cases hwhole : whole? t₁ with
  | none => simp [hwhole]
  | some r =>
    obtain ⟨w, t₂⟩ := r
    simp only [hwhole, Option.map_some, Option.bind_eq_bind, Option.bind_some, passFraction_eq]
    cases hfraction : fraction? t₂ with
    | none => rfl
    | some r =>
      obtain ⟨f, t₃⟩ := r
      simp only [Option.map_some, Option.bind_some, passExponent_eq]
      cases hexponent : exponent? t₃ with
      | none => rfl
      | some r =>
        obtain ⟨⟨minus, e⟩, t₄⟩ := r
        cases t₄ <;> rfl

theorem isNumeral_iff : isNumeral t = true ↔ ∃ n, Number t n := by
  rw [isNumeral_eq, Option.isSome_iff_exists]
  exact exists_congr fun n => ofText?_eq_some_iff

-- The absent character is read as any other that no numeral has.
example : isNumeral ['1', absent] = false := by decide

end Steps

structure LongestRun (t run : Text) : Prop where
  starts : run <+: t
  isRun : IsRun run
  longest : ∀ u, u <+: t → IsRun u → u <+: run

theorem longestRun_append (hrun : IsRun run) (hrest : Stops isNumeralChar rest) :
    LongestRun (run ++ rest) run := by
  refine ⟨⟨rest, rfl⟩, hrun, ?_⟩
  rintro u ⟨v, hv⟩ hu
  have htake := takeWhile_append_stops hrun hrest
  rw [← hv, List.takeWhile_append_of_pos hu] at htake
  exact ⟨v.takeWhile isNumeralChar, htake⟩

theorem exists_longestRun (t : Text) :
    ∃ run rest, t = run ++ rest ∧ LongestRun t run ∧ Stops isNumeralChar rest := by
  obtain ⟨run, rest, rfl, hrun, hrest, -, -⟩ := exists_split_at_stop isNumeralChar t
  exact ⟨run, rest, rfl, longestRun_append hrun hrest, hrest⟩

theorem read_append_iff (hrun : IsRun run) (hrest : Stops isNumeralChar rest) {x : Binary64}
    {last : Text} :
    read (run ++ rest) = .ok (x, last) ↔
      last = rest ∧ ∃ n, Number run n ∧ n.toBinary.isFinite = true ∧ x = n.toBinary := by
  rw [read_eq_ok_iff]
  constructor
  · rintro ⟨w, n, hsplit, hn, hfinite, rfl, hlast⟩
    -- Both runs end where the characters of numbers do, so they are one run.
    obtain rfl : w = run := by
      rw [← takeWhile_append_stops (isRun_number hn) hlast, ← hsplit,
        takeWhile_append_stops hrun hrest]
    exact ⟨(List.append_cancel_left hsplit).symm, n, hn, hfinite, rfl⟩
  · rintro ⟨rfl, n, hn, hfinite, rfl⟩
    exact ⟨run, n, rfl, hn, hfinite, rfl, hrest⟩

theorem isNumeral_iff_and_read_of_longestRun (t : Text) :
    (isNumeral t = true ↔ ∃ n, Number t n) ∧
    ∃ run rest, t = run ++ rest ∧ LongestRun t run ∧
      ((∃ x last, read t = .ok (x, last)) ↔
        run ≠ [] ∧ ∃ n, Number run n ∧ n.toBinary.isFinite = true) ∧
      (∀ x last, read t = .ok (x, last) → last = rest ∧ ∃ n, Number run n ∧ x = n.toBinary) ∧
      (∀ fault, read t = .error fault → fault.remaining = t.size) := by
  refine ⟨isNumeral_iff, ?_⟩
  obtain ⟨run, rest, rfl, hlongest, hrest⟩ := exists_longestRun t
  refine ⟨run, rest, rfl, hlongest, ⟨?_, ?_⟩, ?_, fun fault => remaining_of_read⟩
  · rintro ⟨x, last, hread⟩
    obtain ⟨-, n, hn, hfinite, -⟩ := (read_append_iff hlongest.isRun hrest).1 hread
    obtain ⟨c, u, rfl, -⟩ := exists_cons_of_number hn
    exact ⟨by simp, n, hn, hfinite⟩
  · rintro ⟨-, n, hn, hfinite⟩
    exact ⟨n.toBinary, rest,
      (read_append_iff hlongest.isRun hrest).2 ⟨rfl, n, hn, hfinite, rfl⟩⟩
  · intro x last hread
    obtain ⟨hlast, n, hn, -, hx⟩ := (read_append_iff hlongest.isRun hrest).1 hread
    exact ⟨hlast, n, hn, hx⟩

end TextScan.Json.Numeral
