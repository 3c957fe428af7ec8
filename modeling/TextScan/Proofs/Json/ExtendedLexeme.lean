import TextScan.Proofs.Json.Extension
import TextScan.Proofs.Json.Scalar

namespace TextScan.Json

open Grammar Text CharClass

variable {α : Type} {t s u rest : Text} {r k : Text → Reading (α × Text)}

theorem Steady.behindBlanks (h : Steady r) : Steady fun t => r (skipBlank t) := by
  intro t s
  obtain ⟨b, x, rfl, hb, hx, hskip⟩ := exists_skipBlank t
  simp only [hskip]
  cases x with
  | nil => exact .ended (Nat.le_zero.1 (h.left_le []))
  | cons c x =>
    have hc : Stops isBlank (c :: (x ++ s)) := stops_cons.2 hx.head
    rw [List.append_assoc, List.cons_append, skipBlank_blank_append hb hc]
    exact (h (c :: x) s).append_left b

def markThen (mark : Char) (missing : Requirement) (k : Text → Reading (α × Text)) :
    Text → Reading (α × Text)
  | [] => fail missing []
  | c :: t => if c = mark then k t else fail missing (c :: t)

theorem steady_markThen {mark : Char} {missing : Requirement} (h : Steady k) :
    Steady (markThen mark missing k) := by
  refine steady_of_cons rfl ?_
  intro c t s
  rw [markThen, markThen]
  split
  · exact (h t s).append_left [c]
  · exact .fail missing (c :: t) s

theorem skipMark_bind (mark : Char) (missing : Requirement) (t : Text) :
    skipMark mark missing t >>= k = markThen mark missing k (skipBlank t) := by
  unfold skipMark
  cases skipBlank t with
  | nil => rfl
  | cons c rest =>
    simp only [markThen]
    split <;> rfl

theorem steady_skipMark {mark : Char} {missing : Requirement} (h : Steady k) :
    Steady fun t => skipMark mark missing t >>= k := by
  simp only [skipMark_bind]
  exact (steady_markThen h).behindBlanks

theorem suffix_of_append_eq (h : t ++ s = u ++ rest) (hu : ¬ u <+: t) :
    ∃ w, u = t ++ w ∧ s = w ++ rest := by
  rcases List.append_eq_append_iff.1 h with hw | ⟨w, rfl, -⟩
  · exact hw
  · exact absurd (List.prefix_append u w) hu

def literalThen (literal : Text) (k r : Text → Reading (α × Text)) (t : Text) :
    Reading (α × Text) :=
  match dropPrefix? literal t with
  | some rest => k rest
  | none => r t

theorem steady_literalThen (literal : Text) (hk : Steady k) (hr : Steady r) :
    Steady (literalThen literal k r) := by
  intro t s
  unfold literalThen
  cases hshort : dropPrefix? literal t with
  | some rest =>
    obtain rfl := dropPrefix?_eq_some_iff.1 hshort
    rw [List.append_assoc, dropPrefix?_append]
    exact (hk rest s).append_left literal
  | none =>
    cases hlong : dropPrefix? literal (t ++ s) with
    | none => exact hr t s
    | some rest =>
      obtain ⟨w, -, rfl⟩ := suffix_of_append_eq (dropPrefix?_eq_some_iff.1 hlong)
        (dropPrefix?_eq_none_iff.1 hshort)
      refine .reached (Nat.le_trans (hk.left_le rest) ?_)
      rw [size_append]
      exact Nat.le_add_left _ _

section Numbers

theorem read_run {run : Text} (hrun : Numeral.IsRun run) (hne : run ≠ [])
    (hrest : Stops Numeral.isNumeralChar rest) :
    Numeral.read (run ++ rest) = match Numeral.ofText? run with
      | none => fail .numberShape (run ++ rest)
      | some n => if n.toBinary.isFinite then .ok (n.toBinary, rest)
        else fail .numberRange (run ++ rest) := by
  rw [Numeral.read, takeWhile_append_stops hrun hrest, dropWhile_append_stops hrun hrest]
  cases run with
  | nil => exact absurd rfl hne
  | cons c run => rfl

theorem read_run_cases {run : Text} (hrun : Numeral.IsRun run) (hne : run ≠ [])
    (hrest : Stops Numeral.isNumeralChar rest) :
    (∃ x, Numeral.read (run ++ rest) = .ok (x, rest)) ∨
      ∃ m ∈ [Requirement.numberShape, .numberRange],
        Numeral.read (run ++ rest) = fail m (run ++ rest) := by
  rw [read_run hrun hne hrest]
  split
  · exact .inr ⟨.numberShape, by simp, rfl⟩
  · split
    · exact .inl ⟨_, rfl⟩
    · exact .inr ⟨.numberRange, by simp, rfl⟩

theorem extended_read_same {run : Text} (hrun : Numeral.IsRun run) (hne : run ≠ [])
    (hrest : Stops Numeral.isNumeralChar rest) (hmore : Stops Numeral.isNumeralChar (rest ++ s)) :
    Extended (run ++ rest) s (Numeral.read (run ++ rest)) (Numeral.read (run ++ (rest ++ s))) := by
  rw [read_run hrun hne hrest, read_run hrun hne hmore, ← List.append_assoc]
  split
  · exact .fail _ _ _
  · split
    · exact .ok rfl
    · exact .fail _ _ _

theorem extended_read_longer {run more : Text} {c : Char} (hrun : Numeral.IsRun run)
    (hne : run ≠ []) (hmore : Numeral.IsRun (c :: more))
    (hrest : Stops Numeral.isNumeralChar rest) :
    Extended run (c :: (more ++ rest)) (Numeral.read run)
      (Numeral.read (run ++ c :: (more ++ rest))) := by
  have hlong := read_run_cases (Numeral.isRun_append hrun hmore) (by simp [hne]) hrest
  have hshort := read_run_cases hrun hne stops_nil
  rw [List.append_assoc, List.cons_append] at hlong
  rw [List.append_nil] at hshort
  rcases hshort with ⟨x, hx⟩ | ⟨m, hm, hx⟩
  · exact .ended (by rw [hx]; rfl)
  · rcases hlong with ⟨y, hy⟩ | ⟨m', hm', hy⟩
    · refine .reached ?_
      rw [hy, ← List.cons_append, size_append]
      exact Nat.le_add_left _ _
    · rw [hx, hy]
      exact .refused (.inr (.number hm hm' hrun (hmore c (List.mem_cons_self ..))))

theorem steady_read : Steady Numeral.read := by
  intro t s
  obtain ⟨run, rest, rfl, hrun, hrest, -, -⟩ := exists_split_at_stop Numeral.isNumeralChar t
  rw [List.append_assoc]
  cases run with
  | nil =>
    cases rest with
    | nil => exact .ended rfl
    | cons c rest =>
      have hvalue (x : Text) : Numeral.read (c :: x) = fail .value (c :: x) := by
        rw [Numeral.read, (stops_cons.2 hrest.head : Stops _ (c :: x)).takeWhile]
      rw [List.nil_append, List.nil_append, List.cons_append, hvalue, hvalue]
      exact .fail .value (c :: rest) s
  | cons d run =>
    have hne : d :: run ≠ [] := List.cons_ne_nil d run
    cases rest with
    | cons c rest => exact extended_read_same hrun hne hrest (stops_cons.2 hrest.head)
    | nil =>
      obtain ⟨more, behind, rfl, hmore, hbehind, -, -⟩ :=
        exists_split_at_stop Numeral.isNumeralChar s
      cases more with
      | nil => exact extended_read_same hrun hne hrest hbehind
      | cons c more =>
        rw [List.append_nil]
        exact extended_read_longer hrun hne hmore hbehind

end Numbers

namespace Quoted

-- A unit that has to be good: a bad one is refused in front of its digits.
def checkedUnit (good : Nat → Bool) (bad : Requirement) (t : Text) : Reading (Nat × Text) :=
  unit t >>= fun q => if good q.1 then .ok q else fail bad t

theorem unit_of_error {fault : Fault} (h : unit t = .error fault) :
    unit t = fail .fourHexDigits t := by
  unfold unit at h ⊢
  split at h
  · split at h
    · cases h
    · next hall => rw [if_neg hall]
  · rfl

theorem extended_unit {a b c d : Char} (good : Nat → Bool) (bad : Requirement) (t s : Text) :
    Extended (a :: b :: c :: d :: t) s (checkedUnit good bad (a :: b :: c :: d :: t))
      (checkedUnit good bad (a :: b :: c :: d :: (t ++ s))) := by
  rw [checkedUnit, checkedUnit, unit, unit]
  by_cases hall : [a, b, c, d].all CharClass.isHexDigit = true
  · simp only [if_pos hall, bind, Except.bind]
    split
    · exact .ok (u := [a, b, c, d]) rfl
    · exact .fail bad (a :: b :: c :: d :: t) s
  · rw [if_neg hall, if_neg hall]
    exact .fail .fourHexDigits (a :: b :: c :: d :: t) s

theorem extended_shortUnit {good : Nat → Bool} {bad : Requirement}
    (hbad : bad ∈ [Requirement.scalar, .lowSurrogate]) (hlength : t.length < 4) (s : Text) :
    Extended t s (checkedUnit good bad t) (checkedUnit good bad (t ++ s)) := by
  have hshort : unit t = fail .fourHexDigits t := by
    cases hunit : unit t with
    | error fault => rw [← hunit, unit_of_error hunit]
    | ok q =>
      obtain ⟨u, hu, rfl⟩ := exists_hexUnit hunit
      have hfour := (HexUnit.all hu).2
      rw [List.length_append] at hlength
      omega
  have hfail : checkedUnit good bad t = fail .fourHexDigits t := by
    rw [checkedUnit, hshort]
    rfl
  rw [hfail, checkedUnit]
  cases hlong : unit (t ++ s) with
  | error fault =>
    obtain rfl := Except.error.inj (hlong.symm.trans (unit_of_error hlong))
    exact .fail .fourHexDigits t s
  | ok q =>
    obtain ⟨n, rest⟩ := q
    obtain ⟨u, hu, hsplit⟩ := exists_hexUnit hlong
    obtain ⟨hall, hfour⟩ := HexUnit.all hu
    have hnot : ¬ u <+: t := fun hprefix => by
      have hle := hprefix.length_le
      omega
    obtain ⟨w, rfl, rfl⟩ := suffix_of_append_eq hsplit hnot
    obtain ⟨ht, hw⟩ := List.forall_mem_append.1 hall
    simp only [bind, Except.bind]
    split
    · refine .reached ?_
      rw [size_append]
      exact Nat.le_add_left _ _
    · cases w with
      | nil => simp at hnot
      | cons c w =>
        exact .refused (.inr (.hexDigits hbad ht hlength (hw c (List.mem_cons_self ..))))

theorem steady_checkedUnit {good : Nat → Bool} {bad : Requirement}
    (hbad : bad ∈ [Requirement.scalar, .lowSurrogate]) : Steady (checkedUnit good bad) := by
  intro t s
  match t with
  | a :: b :: c :: d :: t => exact extended_unit good bad t s
  | [] | [_] | [_, _] | [_, _, _] => exact extended_shortUnit hbad (by simp) s

def lowUnitThen (high : Nat) (t : Text) : Reading (Char × Text) :=
  (checkedUnit isLowSurrogate .lowSurrogate t).map fun q => (ofSurrogates high q.1, q.2)

theorem codeEscape_eq (t : Text) :
    codeEscape t = checkedUnit (fun n => !isLowSurrogate n) .scalar t >>= fun q =>
      if isHighSurrogate q.1 then
        literalThen ['\\', 'u'] (lowUnitThen q.1) (fail .lowSurrogate) q.2
      else .ok (Char.ofNat q.1, q.2) := by
  rw [codeEscape, checkedUnit]
  cases unit t with
  | error fault => rfl
  | ok q =>
    obtain ⟨n, rest⟩ := q
    simp only [bind, Except.bind]
    cases hlow : isLowSurrogate n with
    | true => simp [isHighSurrogate_of_isLowSurrogate hlow, fail]
    | false =>
      simp only [Bool.not_false, if_true, Bool.false_eq_true, if_false]
      split
      · unfold literalThen
        cases dropPrefix? ['\\', 'u'] rest with
        | none => rfl
        | some second =>
          simp only [lowUnitThen, checkedUnit, bind, Except.bind]
          cases unit second with
          | error fault => rfl
          | ok q =>
            simp only
            split <;> rfl
      · rfl

theorem steady_codeEscape : Steady codeEscape := by
  have hlow (high : Nat) : Steady (lowUnitThen high) :=
    (steady_checkedUnit (by simp)).map (ofSurrogates high)
  have hbehind (high : Nat) : Steady fun t => if isHighSurrogate high then
      literalThen ['\\', 'u'] (lowUnitThen high) (fail .lowSurrogate) t
      else .ok (Char.ofNat high, t) := by
    split
    · exact steady_literalThen _ (hlow high) (steady_fail _)
    · exact steady_ok _
  rw [funext codeEscape_eq]
  exact (steady_checkedUnit (by simp)).bind hbehind

theorem escape_short {c : Char} (hc : c ≠ 'u') (t : Text) :
    escape (c :: t) = (shortEscape? c).elim (fail .escape (c :: t)) fun x => .ok (x, t) := by
  rw [escape]
  · cases shortEscape? c <;> rfl
  · exact hc

theorem steady_escape : Steady escape := by
  refine steady_of_cons rfl ?_
  intro c t s
  by_cases hc : c = 'u'
  · subst hc
    exact (steady_codeEscape t s).append_left ['u']
  · rw [escape_short hc, escape_short hc]
    cases shortEscape? c with
    | some x => exact .ok (u := [c]) rfl
    | none => exact .fail .escape (c :: t) s

theorem body_backslash (t : Text) :
    body ('\\' :: t) = escape t >>= fun q => (body q.2).map fun p => (q.1 :: p.1, p.2) := by
  cases hescape : escape t with
  | error fault => exact body_of_escape_error hescape
  | ok q =>
    obtain ⟨w, hw, rfl⟩ := spelling_of_escape hescape
    exact body_spelling hw

theorem body_raw {c : Char} (hquote : c ≠ '"') (hslash : c ≠ '\\') (t : Text) :
    body (c :: t) = (body t).map fun p => (c :: p.1, p.2) := by
  rw [body]
  · exact hquote
  · exact hslash

theorem left_body_le (t : Text) : left (body t) ≤ t.size := by
  cases h : body t with
  | ok q =>
    obtain ⟨s, rest⟩ := q
    obtain ⟨w, -, rfl⟩ := spellings_of_body h
    simp only [left, size_append, size_cons]
    omega
  | error fault =>
    obtain ⟨front, part, rest, rfl, ⟨hremaining, -⟩, -⟩ := breaksOff_body h
    rw [left, hremaining, size_append front]
    exact Nat.le_add_left _ _

theorem steady_body : Steady body := by
  intro t s
  -- Behind an escape the body goes on with what the escape leaves, which may be any shorter text.
  induction hlength : t.length using Nat.strongRecOn generalizing t with
  | ind n ih =>
    subst hlength
    cases t with
    | nil => exact .ended (by rw [body]; rfl)
    | cons c t =>
      rw [List.cons_append]
      by_cases hquote : c = '"'
      · subst hquote
        rw [body, body]
        exact .ok (u := ['"']) rfl
      by_cases hslash : c = '\\'
      · subst hslash
        rw [body_backslash, body_backslash]
        refine (Extended.bind (steady_escape t s) ?_ ?_).append_left ['\\']
        · intro x rest
          rw [left_map]
          exact left_body_le rest
        · intro x u rest _ hescape
          have hlt := escape_shorter hescape
          exact (ih rest.length (Nat.lt_succ_of_lt hlt) rest rfl).map (x :: ·)
      · rw [body_raw hquote hslash, body_raw hquote hslash]
        exact ((ih t.length (Nat.lt_succ_self _) t rfl).map (c :: ·)).append_left [c]

end Quoted

end TextScan.Json
