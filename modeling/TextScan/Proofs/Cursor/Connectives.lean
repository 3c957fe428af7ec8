import TextScan.CharPred
import TextScan.Cursor.Policy
import TextScan.Proofs.Text.Stops

namespace TextScan

namespace CharPred

inductive DeMorgan : CharPred → CharPred → Prop
  | notAnd (p q : CharPred) : DeMorgan (not (and p q)) (or (not p) (not q))
  | notOr (p q : CharPred) : DeMorgan (not (or p q)) (and (not p) (not q))
  | notNot (p : CharPred) : DeMorgan (not (not p)) p
  | refl (p : CharPred) : DeMorgan p p
  | symm {p q : CharPred} : DeMorgan p q → DeMorgan q p
  | trans {p q r : CharPred} : DeMorgan p q → DeMorgan q r → DeMorgan p r
  | not {p p' : CharPred} : DeMorgan p p' → DeMorgan (not p) (not p')
  | and {p p' q q' : CharPred} : DeMorgan p p' → DeMorgan q q' → DeMorgan (and p q) (and p' q')
  | or {p p' q q' : CharPred} : DeMorgan p p' → DeMorgan q q' → DeMorgan (or p q) (or p' q')

theorem DeMorgan.holds_eq {p q : CharPred} (h : DeMorgan p q) : p.holds = q.holds := by
  induction h with
  | notAnd p q => exact holds_not_and p q
  | notOr p q => exact holds_not_or p q
  | notNot p => funext x; simp [holds]
  | refl p => rfl
  | symm _ ih => exact ih.symm
  | trans _ _ ihp ihq => exact ihp.trans ihq
  | not _ ih => funext x; simp [holds, ih]
  | and _ _ ihp ihq => funext x; simp [holds, ihp, ihq]
  | or _ _ ihp ihq => funext x; simp [holds, ihp, ihq]

def opposite : CharPred → CharPred
  | not p => p
  | and p q => or p.opposite q.opposite
  | or p q => and p.opposite q.opposite
  | p => not p

theorem deMorgan_opposite (p : CharPred) : DeMorgan (not p) p.opposite := by
  induction p with
  | not p _ => exact .notNot p
  | and p q ihp ihq => exact .trans (.notAnd p q) (.or ihp ihq)
  | or p q ihp ihq => exact .trans (.notOr p q) (.and ihp ihq)
  | any => exact .refl _
  | is c => exact .refl _
  | among set => exact .refl _
  | test f => exact .refl _

end CharPred

namespace Text

variable {p q r : Char → Bool} {t : Text}

theorem size_dropWhile_le (p : Char → Bool) (t : Text) : size (t.dropWhile p) ≤ size t :=
  size_le_of_suffix (List.dropWhile_suffix p)

theorem dropWhile_and (p q : Char → Bool) (t : Text) :
    t.dropWhile (fun x => p x && q x) =
      if size (t.dropWhile q) ≤ size (t.dropWhile p) then t.dropWhile p else t.dropWhile q := by
  induction t with
  | nil => rfl
  | cons x t ih =>
    -- The predicate that stops first leaves the whole text, and no scan leaves more than that.
    cases hp : p x with
    | false =>
      have hboth : Stops (fun x => p x && q x) (x :: t) := stops_cons.2 (by simp [hp])
      have hfirst : Stops p (x :: t) := stops_cons.2 hp
      rw [hboth.dropWhile, hfirst.dropWhile, if_pos (size_dropWhile_le q _)]
    | true =>
      cases hq : q x with
      | false =>
        have hboth : Stops (fun x => p x && q x) (x :: t) := stops_cons.2 (by simp [hq])
        have hsecond : Stops q (x :: t) := stops_cons.2 hq
        have hlt : ¬ size (x :: t) ≤ size (t.dropWhile p) :=
          Nat.not_le.2 (Nat.lt_of_le_of_lt (size_dropWhile_le p t) (size_lt_cons x t))
        rw [hboth.dropWhile, hsecond.dropWhile, List.dropWhile_cons_of_pos hp, if_neg hlt]
      | true =>
        rw [List.dropWhile_cons_of_pos (by simp [hp, hq]), List.dropWhile_cons_of_pos hp,
          List.dropWhile_cons_of_pos hq, ih]

theorem dropWhile_dropWhile_of_imp (h : ∀ x, p x = true → r x = true) (t : Text) :
    (t.dropWhile p).dropWhile r = t.dropWhile r := by
  obtain ⟨u, v, rfl, hu, -, -, hdrop⟩ := exists_split_at_stop p t
  rw [hdrop, List.dropWhile_append_of_pos fun x hx => h x (hu x hx)]

theorem stops_or (hp : Stops p t) (hq : Stops q t) : Stops (fun x => p x || q x) t := by
  cases t with
  | nil => exact stops_nil
  | cons x t => exact stops_cons.2 (by rw [hp.head, hq.head]; rfl)

theorem stops_of_size_dropWhile (h : size t ≤ size (t.dropWhile p)) : Stops p t := by
  cases t with
  | nil => exact stops_nil
  | cons x t =>
    cases hx : p x with
    | false => exact stops_cons.2 hx
    | true =>
      rw [List.dropWhile_cons_of_pos hx] at h
      have hlt := Nat.lt_of_le_of_lt (size_dropWhile_le p t) (size_lt_cons x t)
      exact absurd h (Nat.not_le.2 hlt)

end Text

namespace Cursor

open Text

variable {σ : Type} [Cursor σ] {p q r : Char → Bool} {c d e : σ}

def earlier (d e : σ) : σ :=
  if remaining e ≤ remaining d then d else e

theorem remaining_earlier (d e : σ) :
    remaining (earlier d e) = max (remaining d) (remaining e) := by
  unfold earlier
  split <;> omega

-- Where scans of the two predicates lead, whichever of them comes next.
inductive ByTurns (p q : Char → Bool) (c : σ) : σ → Prop
  | start : ByTurns p q c c
  | first {d : σ} : ByTurns p q c d → ByTurns p q c (skipWhile p d)
  | second {d : σ} : ByTurns p q c d → ByTurns p q c (skipWhile q d)

def skipByTurns (p q : Char → Bool) (c : σ) : σ :=
  let d := skipWhile q (skipWhile p c)
  if remaining d < remaining c then skipByTurns p q d else d
termination_by remaining c

variable [LawfulCursor σ]

theorem rest_skipWhile (p : Char → Bool) (c : σ) : rest (skipWhile p c) = (rest c).dropWhile p :=
  LawfulCursor.rest_withRest c _

theorem remaining_skipWhile_le (p : Char → Bool) (c : σ) :
    remaining (skipWhile p c) ≤ remaining c := by
  rw [remaining, rest_skipWhile]
  exact size_dropWhile_le p (rest c)

theorem skipWhile_and (p q : Char → Bool) (c : σ) :
    skipWhile (fun x => p x && q x) c = earlier (skipWhile p c) (skipWhile q c) := by
  rw [earlier, remaining, remaining, rest_skipWhile, rest_skipWhile, skipWhile, dropWhile_and]
  split <;> rfl

theorem skipUntil_or (p q : Char → Bool) (c : σ) :
    skipUntil (fun x => p x || q x) c = earlier (skipUntil p c) (skipUntil q c) := by
  rw [skipUntil, skipUntil, skipUntil, ← skipWhile_and]
  simp only [Bool.not_or]

theorem skipWhile_skipWhile_of_imp (h : ∀ x, p x = true → r x = true) (c : σ) :
    skipWhile r (skipWhile p c) = skipWhile r c := by
  rw [skipWhile, rest_skipWhile, dropWhile_dropWhile_of_imp h, skipWhile,
    LawfulCursor.withRest_withRest]
  rfl

theorem stops_of_skipWhile (h : ¬ remaining (skipWhile p c) < remaining c) : Stops p (rest c) := by
  rw [remaining, rest_skipWhile, Nat.not_lt] at h
  exact stops_of_size_dropWhile h

theorem skipWhile_of_stops (h : Stops p (rest c)) : skipWhile p c = c := by
  rw [skipWhile, h.dropWhile, LawfulCursor.withRest_rest]

theorem skipWhile_or_of_still (hp : ¬ remaining (skipWhile p c) < remaining c)
    (hq : ¬ remaining (skipWhile q c) < remaining c) : skipWhile (fun x => p x || q x) c = c :=
  skipWhile_of_stops (stops_or (stops_of_skipWhile hp) (stops_of_skipWhile hq))

-- Each turn leaves the scan of both together where it would have ended without it.
theorem ByTurns.skipWhile_or (h : ByTurns p q c d) :
    skipWhile (fun x => p x || q x) d = skipWhile (fun x => p x || q x) c := by
  induction h with
  | start => rfl
  | first _ ih => rw [skipWhile_skipWhile_of_imp (by simp +contextual), ih]
  | second _ ih => rw [skipWhile_skipWhile_of_imp (by simp +contextual), ih]

theorem ByTurns.eq_of_still (h : ByTurns p q c d)
    (hp : ¬ remaining (skipWhile p d) < remaining d)
    (hq : ¬ remaining (skipWhile q d) < remaining d) : d = skipWhile (fun x => p x || q x) c := by
  rw [← h.skipWhile_or, skipWhile_or_of_still hp hq]

theorem round_of_still (h : ¬ remaining (skipWhile q (skipWhile p c)) < remaining c) :
    skipWhile q (skipWhile p c) = skipWhile (fun x => p x || q x) c := by
  have hle := remaining_skipWhile_le q (skipWhile p c)
  have hp : ¬ remaining (skipWhile p c) < remaining c := by omega
  have hfirst : skipWhile p c = c := skipWhile_of_stops (stops_of_skipWhile hp)
  rw [hfirst] at h
  rw [hfirst, skipWhile_or_of_still hp h, skipWhile_of_stops (stops_of_skipWhile h)]

theorem skipByTurns_eq (p q : Char → Bool) (c : σ) :
    skipByTurns p q c = skipWhile (fun x => p x || q x) c := by
  fun_induction skipByTurns p q c with
  | case1 c d hlt ih =>
    have hround : ByTurns p q c d := .second (.first .start)
    rw [ih, hround.skipWhile_or]
  | case2 c d hstill => exact round_of_still hstill

theorem exists_skipped (p : Char → Bool) (c : σ) :
    ∃ s, rest c = s ++ rest (skipWhile p c) ∧ (∀ x ∈ s, p x = true) ∧
      Stops p (rest (skipWhile p c)) := by
  obtain ⟨s, t, hrest, hs, ht, -, hdrop⟩ := exists_split_at_stop p (rest c)
  rw [rest_skipWhile, hdrop]
  exact ⟨s, hrest, hs, ht⟩

structure RespectsConnectives (p q : CharPred) (c : σ) : Prop where
  -- A scan that never skips anything would have all that follows, but not this.
  skipped : ∃ s, rest c = s ++ rest (skipWhile p c) ∧ (∀ x ∈ s, p x = true) ∧
    Stops p (rest (skipWhile p c))
  until_or : skipUntil (CharPred.or p q) c = earlier (skipUntil p c) (skipUntil q c) ∧
    remaining (skipUntil (CharPred.or p q) c) =
      max (remaining (skipUntil p c)) (remaining (skipUntil q c))
  while_and : skipWhile (CharPred.and p q) c = earlier (skipWhile p c) (skipWhile q c) ∧
    remaining (skipWhile (CharPred.and p q) c) =
      max (remaining (skipWhile p c)) (remaining (skipWhile q c))
  until_eq : skipUntil p c = skipWhile (CharPred.not p) c ∧ skipUntil p c = skipWhile p.opposite c
  duals : ∀ r, CharPred.DeMorgan p r →
    skipWhile p c = skipWhile r c ∧ skipUntil p c = skipUntil r c
  turns : skipByTurns p q c = skipWhile (CharPred.or p q) c
  any_turns : ∀ d, ByTurns p q c d → ¬ remaining (skipWhile p d) < remaining d →
    ¬ remaining (skipWhile q d) < remaining d → d = skipWhile (CharPred.or p q) c

theorem respects_connectives (p q : CharPred) (c : σ) : RespectsConnectives p q c where
  skipped := exists_skipped p c
  until_or := by
    have hor : skipUntil (CharPred.or p q) c = earlier (skipUntil p c) (skipUntil q c) :=
      skipUntil_or p q c
    exact ⟨hor, by rw [hor, remaining_earlier]⟩
  while_and := by
    have hand : skipWhile (CharPred.and p q) c = earlier (skipWhile p c) (skipWhile q c) :=
      skipWhile_and p q c
    exact ⟨hand, by rw [hand, remaining_earlier]⟩
  until_eq := by
    have hnot : skipUntil p c = skipWhile (CharPred.not p) c := rfl
    exact ⟨hnot, by rw [hnot, (CharPred.deMorgan_opposite p).holds_eq]⟩
  duals r h := by
    rw [h.holds_eq]
    exact ⟨rfl, rfl⟩
  turns := skipByTurns_eq p q c
  any_turns d h := h.eq_of_still

theorem respects_connectives_in_five_turns :
    skipByTurns (CharPred.is 'é') (CharPred.not (.or (.is 'é') (.is 'a')))
        (⟨['é', 'b', 'é', 'b', 'é', 'a'], some ⟨"a digit", 9⟩⟩ : Collecting) =
      ⟨['a'], some ⟨"a digit", 9⟩⟩ :=
  ((respects_connectives (.is 'é') (.not (.or (.is 'é') (.is 'a')))
    (⟨['é', 'b', 'é', 'b', 'é', 'a'], some ⟨"a digit", 9⟩⟩ : Collecting)).turns).trans (by decide)

end Cursor

end TextScan
