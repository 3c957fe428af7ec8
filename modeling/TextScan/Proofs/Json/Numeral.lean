import TextScan.Proofs.Json.Grammar

namespace TextScan.Json.Numeral

open Grammar Text

variable {t rest : Text}

theorem digits?_eq_some_iff {ds : Text} :
    digits? t = some (ds, rest) ↔
      t = ds ++ rest ∧ ds ≠ [] ∧ Digits ds ∧ Stops Char.isDigit rest := by
  constructor
  · intro h
    obtain ⟨u, v, rfl, hu, hv, htake, hdrop⟩ := exists_split_at_stop Char.isDigit t
    rw [digits?, htake, hdrop] at h
    cases u with
    | nil => simp at h
    | cons d u =>
      obtain ⟨rfl, rfl⟩ := Prod.mk.inj (Option.some.inj h)
      exact ⟨rfl, by simp, hu, hv⟩
  · rintro ⟨rfl, hne, hds, hrest⟩
    rw [digits?, takeWhile_append_stops hds hrest, dropWhile_append_stops hds hrest]
    cases ds with
    | nil => exact absurd rfl hne
    | cons d ds => rfl

theorem sign_append {s : Text} {negative : Bool} (hs : Sign s negative)
    (ht : Stops (· == '-') t) : sign (s ++ t) = (negative, t) := by
  cases hs with
  | minus => rfl
  | plus =>
    rw [List.nil_append]
    unfold sign
    split
    · next r => simp at ht
    · rfl

theorem exists_sign (t : Text) : ∃ s, Sign s (sign t).1 ∧ t = s ++ (sign t).2 := by
  unfold sign
  split
  · exact ⟨['-'], .minus, rfl⟩
  · exact ⟨[], .plus, rfl⟩

theorem whole?_append {w : Text} (hw : Whole w) (ht : Stops Char.isDigit t) :
    whole? (w ++ t) = some (w, t) := by
  cases hw with
  | zero => rfl
  | @digits d ds hd hd0 hds =>
    unfold whole?
    split
    · next r heq => exact absurd (List.cons.inj heq).1 hd0
    · refine digits?_eq_some_iff.2 ⟨rfl, by simp, ?_, ht⟩
      intro c hc
      rcases List.mem_cons.1 hc with rfl | hc
      · exact hd
      · exact hds c hc

theorem whole_of_whole? {w : Text} (h : whole? t = some (w, rest)) : Whole w ∧ t = w ++ rest := by
  unfold whole? at h
  split at h
  · obtain ⟨rfl, rfl⟩ := Prod.mk.inj (Option.some.inj h)
    exact ⟨.zero, rfl⟩
  · next hzero =>
    obtain ⟨rfl, hne, hds, -⟩ := digits?_eq_some_iff.1 h
    refine ⟨?_, rfl⟩
    cases w with
    | nil => exact absurd rfl hne
    | cons d ds =>
      refine .digits (hds d (by simp)) ?_ fun c hc => hds c (by simp [hc])
      rintro rfl
      exact hzero _ rfl

theorem fraction?_append {f ds : Text} (hf : Fraction f ds)
    (ht : Stops (fun c => c.isDigit || c == '.') t) : fraction? (f ++ t) = some (ds, t) := by
  cases hf with
  | none =>
    rw [List.nil_append]
    unfold fraction?
    split
    · next r => simp at ht
    · rfl
  | digits hne hds =>
    exact digits?_eq_some_iff.2 ⟨rfl, hne, hds, ht.mono fun c hc => by simp [hc]⟩

theorem fraction_of_fraction? {ds : Text} (h : fraction? t = some (ds, rest)) :
    ∃ f, Fraction f ds ∧ t = f ++ rest := by
  unfold fraction? at h
  split at h
  · obtain ⟨rfl, hne, hds, -⟩ := digits?_eq_some_iff.1 h
    exact ⟨_, .digits hne hds, rfl⟩
  · obtain ⟨rfl, rfl⟩ := Prod.mk.inj (Option.some.inj h)
    exact ⟨[], .none, rfl⟩

theorem exponentSign_append {s : Text} {negative : Bool} (hs : ExponentSign s negative)
    (ht : Stops (fun c => c == '-' || c == '+') t) : exponentSign (s ++ t) = (negative, t) := by
  cases hs with
  | plus => rfl
  | minus => rfl
  | none =>
    rw [List.nil_append]
    unfold exponentSign
    split
    · next r => simp at ht
    · next r => simp at ht
    · rfl

theorem exists_exponentSign (t : Text) :
    ∃ s, ExponentSign s (exponentSign t).1 ∧ t = s ++ (exponentSign t).2 := by
  unfold exponentSign
  split
  · exact ⟨['-'], .minus, rfl⟩
  · exact ⟨['+'], .plus, rfl⟩
  · exact ⟨[], .none, rfl⟩

theorem stops_of_digits {p : Char → Bool} (hp : ∀ c : Char, c.isDigit = true → p c = false)
    {ds : Text} (hds : Digits ds) : Stops p ds :=
  stops_of_forall fun c hc => hp c (hds c hc)

theorem exponent?_of_exponent {e ds : Text} {negative : Bool} (he : Exponent e negative ds) :
    exponent? e = some ((negative, ds), []) := by
  cases he with
  | none => rfl
  | digits hc hs hne hds =>
    have hsign := exponentSign_append hs (stops_of_digits (p := fun c => c == '-' || c == '+')
      (fun c hc => by
        cases hm : c == '-' || c == '+' with
        | false => rfl
        | true =>
          rw [Bool.or_eq_true, beq_iff_eq, beq_iff_eq] at hm
          rcases hm with rfl | rfl <;> exact absurd hc (by decide)) hds)
    have hdigits : digits? ds = some (ds, []) :=
      digits?_eq_some_iff.2 ⟨by simp, hne, hds, stops_nil⟩
    rw [exponent?, if_pos hc, hsign]
    simp only [hdigits]
    rfl

theorem exponent_of_exponent? {ds : Text} {negative : Bool}
    (h : exponent? t = some ((negative, ds), rest)) :
    ∃ e, Exponent e negative ds ∧ t = e ++ rest := by
  unfold exponent? at h
  split at h
  · next c u =>
    split at h
    · next hc =>
      obtain ⟨s, hs, hu⟩ := exists_exponentSign u
      rcases hsign : exponentSign u with ⟨minus, v⟩
      rw [hsign] at h hs hu
      obtain ⟨⟨ds', rest'⟩, hdigits, heq⟩ := Option.bind_eq_some_iff.1 h
      obtain ⟨hpair, rfl⟩ := Prod.mk.inj (Option.some.inj heq)
      obtain ⟨rfl, rfl⟩ := Prod.mk.inj hpair
      obtain ⟨hsplit, hne, hds, -⟩ := digits?_eq_some_iff.1 hdigits
      refine ⟨_, .digits hc hs hne hds, ?_⟩
      rw [List.cons_append, List.append_assoc, ← hsplit, hu]
    · obtain ⟨hpair, rfl⟩ := Prod.mk.inj (Option.some.inj h)
      obtain ⟨rfl, rfl⟩ := Prod.mk.inj hpair
      exact ⟨[], .none, rfl⟩
  · obtain ⟨hpair, rfl⟩ := Prod.mk.inj (Option.some.inj h)
    obtain ⟨rfl, rfl⟩ := Prod.mk.inj hpair
    exact ⟨[], .none, rfl⟩

theorem stops_exponent {e ds : Text} {negative : Bool} (he : Exponent e negative ds) :
    Stops (fun c => c.isDigit || c == '.') e := by
  cases he with
  | none => exact stops_nil
  | digits hc => rcases hc with rfl | rfl <;> exact stops_cons.2 (by decide)

theorem stops_fraction {f ds e : Text} (hf : Fraction f ds) (he : Stops Char.isDigit e) :
    Stops Char.isDigit (f ++ e) := by
  cases hf with
  | none => exact he
  | digits => exact stops_cons.2 (by decide)

theorem Whole.exists_cons {w : Text} (hw : Whole w) :
    ∃ d ds, w = d :: ds ∧ d.isDigit = true := by
  cases hw with
  | zero => exact ⟨'0', [], rfl, by decide⟩
  | digits hd => exact ⟨_, _, rfl, hd⟩

theorem ofText?_of_number {n : Numeral} (h : Number t n) : ofText? t = some n := by
  cases h with
  | @parts s w f e fraction exponent negative exponentNegative hs hw hf he =>
    have hstop : Stops (· == '-') (w ++ (f ++ e)) := by
      obtain ⟨d, ds, rfl, hd⟩ := Whole.exists_cons hw
      refine stops_cons.2 (beq_eq_false_iff_ne.2 ?_)
      rintro rfl
      exact absurd hd (by decide)
    have hdigits : Stops Char.isDigit (f ++ e) :=
      stops_fraction hf ((stops_exponent he).mono fun c hc => by simp [hc])
    rw [ofText?, sign_append hs hstop]
    simp only [whole?_append hw hdigits, fraction?_append hf (stops_exponent he),
      exponent?_of_exponent he, Option.bind_eq_bind, Option.bind_some]
    rfl

theorem number_of_ofText? {n : Numeral} (h : ofText? t = some n) : Number t n := by
  obtain ⟨s, hs, ht⟩ := exists_sign t
  rw [ofText?] at h
  rcases hsign : sign t with ⟨negative, u⟩
  rw [hsign] at h hs ht
  obtain ⟨⟨w, v⟩, hwhole, h⟩ := Option.bind_eq_some_iff.1 h
  obtain ⟨⟨fraction, x⟩, hfraction, h⟩ := Option.bind_eq_some_iff.1 h
  obtain ⟨⟨⟨minus, exponent⟩, y⟩, hexponent, h⟩ := Option.bind_eq_some_iff.1 h
  obtain ⟨hw, hu⟩ := whole_of_whole? hwhole
  obtain ⟨f, hf, hv⟩ := fraction_of_fraction? hfraction
  obtain ⟨e, he, hx⟩ := exponent_of_exponent? hexponent
  change (if y.isEmpty then some _ else none) = some n at h
  split at h
  · next hy =>
    obtain rfl := List.isEmpty_iff.1 hy
    obtain rfl := Option.some.inj h
    rw [List.append_nil] at hx
    change u = w ++ v at hu
    change t = s ++ u at ht
    rw [ht, hu, hv, hx]
    exact .parts hs hw hf he
  · simp at h

theorem ofText?_eq_some_iff {n : Numeral} : ofText? t = some n ↔ Number t n :=
  ⟨number_of_ofText?, ofText?_of_number⟩

def IsRun (t : Text) : Prop :=
  ∀ c ∈ t, isNumeralChar c = true

theorem isNumeralChar_of_isDigit {c : Char} (h : c.isDigit = true) : isNumeralChar c = true := by
  simp [isNumeralChar, h]

theorem isNumeralChar_of_isBlank {c : Char} (h : CharClass.isBlank c = true) :
    isNumeralChar c = false :=
  CharClass.eq_false_of_isBlank (by decide +kernel) h

theorem isRun_nil : IsRun [] := by
  intro c hc
  simp at hc

theorem isRun_cons {c : Char} (hc : isNumeralChar c = true) (ht : IsRun t) : IsRun (c :: t) :=
  List.forall_mem_cons.2 ⟨hc, ht⟩

theorem isRun_append {u : Text} (ht : IsRun t) (hu : IsRun u) : IsRun (t ++ u) :=
  List.forall_mem_append.2 ⟨ht, hu⟩

theorem isRun_digits {ds : Text} (h : Digits ds) : IsRun ds :=
  fun c hc => isNumeralChar_of_isDigit (h c hc)

theorem isRun_sign {s : Text} {negative : Bool} (h : Sign s negative) : IsRun s := by
  cases h with
  | plus => exact isRun_nil
  | minus => exact isRun_cons (by decide) isRun_nil

theorem isRun_whole {w : Text} (h : Whole w) : IsRun w := by
  cases h with
  | zero => exact isRun_cons (by decide) isRun_nil
  | digits hd _ hds => exact isRun_cons (isNumeralChar_of_isDigit hd) (isRun_digits hds)

theorem isRun_fraction {f ds : Text} (h : Fraction f ds) : IsRun f := by
  cases h with
  | none => exact isRun_nil
  | digits _ hds => exact isRun_cons (by decide) (isRun_digits hds)

theorem isRun_exponentSign {s : Text} {negative : Bool} (h : ExponentSign s negative) :
    IsRun s := by
  cases h with
  | none => exact isRun_nil
  | plus => exact isRun_cons (by decide) isRun_nil
  | minus => exact isRun_cons (by decide) isRun_nil

theorem isRun_exponent {e ds : Text} {negative : Bool} (h : Exponent e negative ds) :
    IsRun e := by
  cases h with
  | none => exact isRun_nil
  | digits he hs _ hds =>
    refine isRun_cons ?_ (isRun_append (isRun_exponentSign hs) (isRun_digits hds))
    rcases he with rfl | rfl <;> decide

theorem isRun_number {n : Numeral} (h : Number t n) : IsRun t := by
  cases h with
  | parts hs hw hf he =>
    exact isRun_append (isRun_sign hs)
      (isRun_append (isRun_whole hw) (isRun_append (isRun_fraction hf) (isRun_exponent he)))

theorem exists_cons_of_number {n : Numeral} (h : Number t n) :
    ∃ c u, t = c :: u ∧ isNumeralChar c = true := by
  have hrun := isRun_number h
  cases t with
  | cons c u => exact ⟨c, u, rfl, hrun c (by simp)⟩
  | nil =>
    generalize ht : ([] : Text) = t at h
    cases h with
    | parts hs hw =>
      obtain ⟨d, ds, rfl, -⟩ := Whole.exists_cons hw
      simp at ht

theorem read_eq_ok_iff {x : Binary64} :
    read t = .ok (x, rest) ↔
      ∃ run n, t = run ++ rest ∧ Number run n ∧ n.toBinary.isFinite = true ∧
        x = n.toBinary ∧ Stops isNumeralChar rest := by
  constructor
  · intro h
    obtain ⟨run, v, rfl, -, hv, htake, hdrop⟩ := exists_split_at_stop isNumeralChar t
    rw [read, htake, hdrop] at h
    split at h
    · simp [fail] at h
    · split at h
      · simp [fail] at h
      · next n hn =>
        split at h
        · next hfinite =>
          obtain ⟨rfl, rfl⟩ := Prod.mk.inj (Except.ok.inj h)
          exact ⟨run, n, rfl, number_of_ofText? hn, hfinite, rfl, hv⟩
        · simp [fail] at h
  · rintro ⟨run, n, rfl, hn, hfinite, rfl, hrest⟩
    obtain ⟨c, u, rfl, -⟩ := exists_cons_of_number hn
    rw [read, takeWhile_append_stops (isRun_number hn) hrest,
      dropWhile_append_stops (isRun_number hn) hrest]
    simp only [ofText?_of_number hn]
    rw [if_pos hfinite]

end TextScan.Json.Numeral
