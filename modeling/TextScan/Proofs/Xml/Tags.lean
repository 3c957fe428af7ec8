import TextScan.Proofs.Outcome
import TextScan.Proofs.Xml.Agreement
import TextScan.Proofs.Xml.Grammar

namespace TextScan.Xml

open Cursor CharClass Text Run Grammar

variable {t u rest s n : Text}

theorem require_eq_ok_iff {holds : Bool} {expected : String} :
    outcome (Cursor.require holds expected t) = .ok u ↔ holds = true ∧ t = u := by
  cases holds with
  | true =>
    constructor
    · intro h
      exact ⟨rfl, Except.ok.inj h⟩
    · rintro ⟨-, rfl⟩
      rfl
  | false =>
    constructor
    · intro h
      cases h
    · rintro ⟨h, -⟩
      cases h

theorem require_false (expected : String) (t : Text) :
    outcome (Cursor.require false expected t) = .error (Fault.before t expected) := rfl

theorem requireChar_eq_ok_iff {x : Char} :
    outcome (requireChar x t) = .ok u ↔ t = x :: u := by
  rw [requireChar, skipChar]
  simp only [require_eq_ok_iff]
  cases t with
  | nil => simp [takeOne?, Cursor.rest]
  | cons c t =>
    by_cases hc : c = x
    · simp [takeOne?, Cursor.rest, withRest, hc]
    · simp [takeOne?, Cursor.rest, hc]

theorem requireChar_of_head?_ne {x : Char} (h : t.head? ≠ some x) :
    outcome (requireChar x t) = .error (Fault.before t (expectedChar x)) := by
  cases t with
  | nil => rfl
  | cons c t =>
    have hc : (c == x) = false := beq_eq_false_iff_ne.2 fun hc => h (congrArg some hc)
    simp only [requireChar, skipChar, takeOne?, Cursor.rest, hc]
    exact require_false _ _

theorem skipLiteral_append (literal t : Text) : skipLiteral literal (literal ++ t) = (true, t) := by
  have h : dropPrefix? literal (Cursor.rest (literal ++ t)) = some t := dropPrefix?_append literal t
  rw [skipLiteral, h]
  rfl

theorem skipLiteral_of_ne {literal : Text} (h : ∀ u, t ≠ literal ++ u) :
    skipLiteral literal t = (false, t) := by
  cases hu : dropPrefix? literal t with
  | none =>
    change dropPrefix? literal (Cursor.rest t) = none at hu
    rw [skipLiteral, hu]
  | some u => exact absurd (dropPrefix?_eq_some_iff.1 hu) (h u)

theorem name_eq_ok_iff :
    outcome (name t) = .ok (n, rest) ↔
      (t.dropWhile isBlank).head?.any isAlphabetic = true ∧
        (t.dropWhile isBlank).takeWhile isAlphanumeric = n ∧
        ((t.dropWhile isBlank).dropWhile isAlphanumeric).dropWhile isBlank = rest := by
  rw [name, outcome_bind_eq_ok_iff]
  constructor
  · rintro ⟨u, hu, h⟩
    obtain ⟨hstart, rfl⟩ := require_eq_ok_iff.1 hu
    obtain ⟨rfl, rfl⟩ := Prod.mk.inj (Except.ok.inj h)
    exact ⟨hstart, rfl, rfl⟩
  · rintro ⟨hstart, rfl, rfl⟩
    exact ⟨_, require_eq_ok_iff.2 ⟨hstart, rfl⟩, rfl⟩

theorem exists_of_name (h : outcome (name t) = .ok (n, rest)) :
    ∃ b b', Blank b ∧ Name n ∧ Blank b' ∧ t = b ++ (n ++ (b' ++ rest)) ∧ Stops isBlank rest ∧
      Stops isAlphanumeric (b' ++ rest) := by
  obtain ⟨hstart, hn, hrest⟩ := name_eq_ok_iff.1 h
  obtain ⟨b, ht, hb, -⟩ := Blank.exists_append t
  obtain ⟨b', hb', hblank', hstops⟩ :=
    Blank.exists_append ((t.dropWhile isBlank).dropWhile isAlphanumeric)
  rw [hrest] at hb' hstops
  have hsplit : t.dropWhile isBlank = n ++ (b' ++ rest) := by
    rw [← hn, ← hb', List.takeWhile_append_dropWhile]
  refine ⟨b, b', hb, ?_, hblank', by rw [ht, hsplit], hstops, hb' ▸ stops_dropWhile⟩
  cases hu : t.dropWhile isBlank with
  | nil =>
    rw [hu] at hstart
    exact absurd hstart (by simp)
  | cons c cs =>
    rw [hu] at hstart hn
    have hc : isAlphabetic c = true := by simpa using hstart
    rw [← hn, List.takeWhile_cons, if_pos (isAlphanumeric_of_isAlphabetic hc)]
    exact .letter hc (List.all_eq_true.1 List.all_takeWhile)

theorem name_spaced {b b' : Text} (hb : Blank b) (hn : Name n) (hb' : Blank b')
    (hblank : Stops isBlank rest) (halnum : Stops isAlphanumeric (b' ++ rest)) :
    outcome (name (b ++ (n ++ (b' ++ rest)))) = .ok (n, rest) := by
  cases hn with
  | @letter c cs hc hcs =>
    have hall : ∀ d ∈ c :: cs, isAlphanumeric d = true :=
      List.forall_mem_cons.2 ⟨isAlphanumeric_of_isAlphabetic hc, hcs⟩
    have hskip : (b ++ (c :: cs ++ (b' ++ rest))).dropWhile isBlank = c :: cs ++ (b' ++ rest) :=
      hb.dropWhile_append (stops_cons.2 (isBlank_of_isAlphabetic hc))
    rw [name_eq_ok_iff, hskip, takeWhile_append_stops hall halnum,
      dropWhile_append_stops hall halnum]
    exact ⟨by simpa using hc, rfl, hb'.dropWhile_append hblank⟩

theorem spaced_of_name (h : outcome (name t) = .ok (n, rest)) :
    ∃ s, Spaced s n ∧ t = s ++ rest ∧ Stops isBlank rest := by
  obtain ⟨b, b', hb, hn, hb', rfl, hrest, -⟩ := exists_of_name h
  exact ⟨b ++ (n ++ b'), .around hb hn hb', by simp only [List.append_assoc], hrest⟩

theorem name_append (hs : Spaced s n) (hblank : Stops isBlank rest)
    (halnum : Stops isAlphanumeric rest) : outcome (name (s ++ rest)) = .ok (n, rest) := by
  cases hs with
  | around hb hn hb' =>
    rw [List.append_assoc, List.append_assoc]
    exact name_spaced hb hn hb' hblank
      (stops_append (hb'.stops fun _ => isAlphanumeric_of_isBlank) halnum)

theorem tagEnd_eq_ok_iff {m : Text} {closed : Bool} :
    outcome (tagEnd n (skipLiteral ['/', '>'] t)) = .ok ((m, closed), rest) ↔
      n = m ∧ ∃ u, t = closing closed ++ u ∧ u.dropWhile isBlank = rest := by
  by_cases hslash : ∃ u, t = ['/', '>'] ++ u
  · obtain ⟨u, rfl⟩ := hslash
    rw [skipLiteral_append]
    constructor
    · intro h
      obtain ⟨hname, rfl⟩ := Prod.mk.inj (Except.ok.inj h)
      obtain ⟨rfl, rfl⟩ := Prod.mk.inj hname
      exact ⟨rfl, u, rfl, rfl⟩
    · rintro ⟨rfl, v, hv, rfl⟩
      cases closed with
      | true =>
        obtain rfl : u = v := by simpa [closing] using hv
        rfl
      | false => simp [closing] at hv
  · have hne : ∀ u, t ≠ ['/', '>'] ++ u := fun u hu => hslash ⟨u, hu⟩
    rw [skipLiteral_of_ne hne]
    simp only [tagEnd, outcome_bind_eq_ok_iff, requireChar_eq_ok_iff]
    constructor
    · rintro ⟨u, rfl, h⟩
      obtain ⟨hname, rfl⟩ := Prod.mk.inj (Except.ok.inj h)
      obtain ⟨rfl, rfl⟩ := Prod.mk.inj hname
      exact ⟨rfl, u, rfl, rfl⟩
    · rintro ⟨rfl, u, hu, rfl⟩
      cases closed with
      | true => exact absurd hu (hne u)
      | false => exact ⟨u, hu, rfl⟩

theorem stops_closing (closed : Bool) {p : Char → Bool} (hslash : p '/' = false)
    (hgreater : p '>' = false) (u : Text) : Stops p (closing closed ++ u) := by
  cases closed with
  | true => exact stops_cons.2 hslash
  | false => exact stops_cons.2 hgreater

theorem startTag_eq_ok_iff {closed : Bool} :
    outcome (startTag t) = .ok ((n, closed), rest) ↔
      Stops isBlank rest ∧ ∃ u, StartTag u n closed ∧ t = u ++ rest := by
  rw [startTag_eq]
  simp only [outcome_bind_eq_ok_iff, requireChar_eq_ok_iff]
  constructor
  · rintro ⟨t, rfl, ⟨m, r⟩, hname, hend⟩
    obtain ⟨rfl, u, rfl, hrest⟩ := tagEnd_eq_ok_iff.1 hend
    obtain ⟨s, hs, rfl, -⟩ := spaced_of_name hname
    obtain ⟨b, hb, hblank, hstops⟩ := Blank.exists_append u
    rw [hrest] at hb hstops
    refine ⟨hstops, _, .parts hs hblank, ?_⟩
    rw [hb]
    simp only [List.cons_append, List.append_assoc]
  · rintro ⟨hrest, u, hu, rfl⟩
    cases hu with
    | @parts s n b closed hs hb =>
      refine ⟨s ++ (closing closed ++ (b ++ rest)), ?_, (n, closing closed ++ (b ++ rest)), ?_, ?_⟩
      · simp only [List.cons_append, List.append_assoc]
      · exact name_append hs (stops_closing closed rfl rfl _) (stops_closing closed rfl rfl _)
      · exact tagEnd_eq_ok_iff.2 ⟨rfl, _, rfl, hb.dropWhile_append hrest⟩

theorem endTag_nil (n : Text) :
    outcome (endTag n ([] : Text)) = .error (Fault.before [] (Requirement.endTag n).text) :=
  outcome_bind_of_error (require_false (Requirement.endTag n).text []) _

theorem endTag_eq_ok_iff :
    outcome (endTag n t) = .ok rest ↔
      Stops isBlank rest ∧ ∃ u, EndTag u n ∧ t = u ++ rest := by
  rw [endTag]
  simp only [outcome_bind_eq_ok_iff, requireChar_eq_ok_iff, require, require_eq_ok_iff, beq_iff_eq]
  constructor
  · rintro ⟨t₁, ⟨hopened, hopen⟩, ⟨m, r⟩, hname, r', ⟨hm, hr⟩, u, hu, h⟩
    have ht : t = ['<', '/'] ++ t₁ := rest_skipLiteral (Prod.ext hopened hopen)
    simp only at hm hr
    subst hm hr hu
    obtain ⟨s, hs, rfl, -⟩ := spaced_of_name hname
    obtain ⟨b, hb, hblank, hstops⟩ := Blank.exists_append u
    obtain rfl : u.dropWhile isBlank = rest := Except.ok.inj h
    refine ⟨hstops, _, .parts hs hblank, ?_⟩
    rw [ht]
    simp only [List.cons_append, List.append_assoc, List.nil_append]
    rw [← hb]
  · rintro ⟨hrest, u, hu, rfl⟩
    cases hu with
    | @parts s n b hs hb =>
      have hopen : skipLiteral ['<', '/'] ('<' :: '/' :: (s ++ '>' :: b) ++ rest) =
          (true, s ++ '>' :: (b ++ rest)) := by
        rw [← skipLiteral_append ['<', '/'] (s ++ '>' :: (b ++ rest))]
        simp only [List.cons_append, List.append_assoc, List.nil_append]
      have hname : outcome (name (s ++ '>' :: (b ++ rest))) = .ok (n, '>' :: (b ++ rest)) :=
        name_append hs (stops_cons.2 rfl) (stops_cons.2 rfl)
      rw [hopen]
      refine ⟨_, ⟨rfl, rfl⟩, _, hname, _, ⟨rfl, rfl⟩, b ++ rest, rfl, ?_⟩
      exact congrArg Except.ok (hb.dropWhile_append hrest)

end TextScan.Xml
