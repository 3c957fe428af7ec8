import TextScan.CharPred
import TextScan.Program.Run
import TextScan.Proofs.Cursor.Bytes
import TextScan.Proofs.Text.Stops

namespace TextScan

open Program

namespace Text

variable {p : Char → Bool} {max m n : Nat} {s t u : Text}

def countTaken (p : Char → Bool) (max : Nat) : Nat → Nat → Text → Nat
  | _, bytes, [] => bytes
  | taken, bytes, c :: t =>
    if max ≤ taken || !p c then bytes else countTaken p max (taken + 1) (bytes + c.utf8Size) t

theorem matchedBytes_nil (p : Char → Bool) (max : Nat) : matchedBytes p max [] = 0 := by
  cases max <;> rfl

theorem countTaken_eq (p : Char → Bool) (max taken bytes : Nat) (t : Text) :
    countTaken p max taken bytes t = bytes + matchedBytes p (max - taken) t := by
  induction t generalizing taken bytes with
  | nil => rw [matchedBytes_nil]; rfl
  | cons c t ih =>
    rw [countTaken]
    rcases Nat.lt_or_ge taken max with hlt | hge
    · obtain ⟨left, hleft⟩ : ∃ left, max - taken = left + 1 := ⟨max - taken - 1, by omega⟩
      have hnext : max - (taken + 1) = left := by omega
      rw [hleft, matchedBytes]
      cases hc : p c with
      | true => simp [Nat.not_le.2 hlt, ih, hnext, Nat.add_assoc]
      | false => simp
    · rw [Nat.sub_eq_zero_of_le hge]
      simp [hge, matchedBytes]

theorem splitAtByte?_countTaken (p : Char → Bool) (max : Nat) (t : Text) :
    splitAtByte? t (countTaken p max 0 0 t) = some (splitWhile p max t) := by
  rw [countTaken_eq, Nat.zero_add, Nat.sub_zero, splitAtByte?_matchedBytes]

theorem splitWhile_of_stops (max : Nat) (ht : Stops p t) : splitWhile p max t = ([], t) := by
  cases max with
  | zero => rfl
  | succ max =>
    cases t with
    | nil => rfl
    | cons c t => rw [splitWhile, if_neg (by simp [ht.head])]

theorem splitWhile_append_of_forall (hs : ∀ c ∈ s, p c = true) (hlength : s.length ≤ max)
    (hend : s.length = max ∨ Stops p u) : splitWhile p max (s ++ u) = (s, u) := by
  induction s generalizing max with
  | nil =>
    rcases hend with rfl | hu
    · rfl
    · exact splitWhile_of_stops max hu
  | cons c s ih =>
    obtain ⟨hc, hs⟩ := List.forall_mem_cons.1 hs
    cases max with
    | zero => exact absurd hlength (Nat.not_succ_le_zero _)
    | succ max =>
      have hrec := ih hs (Nat.le_of_succ_le_succ hlength) (hend.imp_left Nat.succ.inj)
      rw [List.cons_append, splitWhile, if_pos hc, hrec]

theorem splitWhile_spec (p : Char → Bool) (max : Nat) (t : Text) :
    (∀ c ∈ (splitWhile p max t).1, p c = true) ∧ (splitWhile p max t).1.length ≤ max ∧
      ((splitWhile p max t).1.length = max ∨ Stops p (splitWhile p max t).2) := by
  fun_induction splitWhile p max t with
  | case1 t => simp
  | case2 max => simp
  | case3 max c t hc taken rest hsplit ih =>
    rw [hsplit] at ih
    obtain ⟨hholds, hlength, hend⟩ := ih
    exact ⟨List.forall_mem_cons.2 ⟨hc, hholds⟩, Nat.succ_le_succ hlength,
      hend.imp_left (congrArg (· + 1))⟩
  | case4 max c t hc => simpa using hc

theorem splitWhile_eq_iff :
    splitWhile p max t = (s, u) ↔
      t = s ++ u ∧ (∀ c ∈ s, p c = true) ∧ s.length ≤ max ∧ (s.length = max ∨ Stops p u) := by
  constructor
  · intro h
    have happend := splitWhile_append p max t
    have hspec := splitWhile_spec p max t
    rw [h] at happend hspec
    exact ⟨happend.symm, hspec⟩
  · rintro ⟨rfl, hs, hlength, hend⟩
    exact splitWhile_append_of_forall hs hlength hend

theorem splitWhile_add (p : Char → Bool) (m n : Nat) (t : Text) :
    splitWhile p (m + n) t =
      ((splitWhile p m t).1 ++ (splitWhile p n (splitWhile p m t).2).1,
        (splitWhile p n (splitWhile p m t).2).2) := by
  fun_induction splitWhile p m t with
  | case1 t => simp
  | case2 m => simp [splitWhile_of_stops]
  | case3 m c t hc taken rest hsplit ih =>
    rw [hsplit] at ih
    rw [Nat.succ_add, splitWhile, if_pos hc, ih]
    rfl
  | case4 m c t hc =>
    have hstops : Stops p (c :: t) := stops_cons.2 (Bool.not_eq_true _ ▸ hc)
    simp [splitWhile_of_stops _ hstops]

end Text

namespace Cursor

open Text

variable {σ : Type} [Cursor σ] {p : Char → Bool} {max count : Nat} {c d : σ} {s : Text}

section Taking

def takeOne (p : Char → Bool) (c : σ) : Char × σ :=
  let (x, d) := takeOne? p c
  (x.getD absent, d)

def takeSingly (p : Char → Bool) : Nat → σ → Text × σ
  | 0, c => ([], c)
  | max + 1, c =>
    let (x, d) := takeOne p c
    if remaining d < remaining c then
      let (s, e) := takeSingly p max d
      (x :: s, e)
    else ([], d)

def takeBoth (first second : σ → Text × σ) (c : σ) : Text × σ :=
  let (s, d) := first c
  let (u, e) := second d
  (s ++ u, e)

structure Taken (p : Char → Bool) (max : Nat) (c : σ) (s : Text) (d : σ) : Prop where
  rest_eq : rest c = s ++ rest d
  beside_eq : d = withRest c (rest d)
  holds : ∀ x ∈ s, p x = true
  length_le : s.length ≤ max
  maximal : s.length = max ∨ Stops p (rest d)

structure TakesLongest (p : Char → Bool) (c : σ) : Prop where
  taken_iff : ∀ max s d, takeBounded p max c = (s, d) ↔ Taken p max c s d
  counted : ∀ max, (rest c).splitAtByte? ((rest c).countTaken p max 0 0) =
    some ((takeBounded p max c).1, rest (takeBounded p max c).2)
  both : ∀ m n, takeBoth (takeBounded p m) (takeBounded p n) c = takeBounded p (m + n) c
  singly : ∀ max, takeSingly p max c = takeBounded p max c
  -- No text is longer than the bound that stands for none.
  unbounded : ∀ bound, (rest c).length ≤ bound → takeBounded p bound c = takeWhile p c
  exhausted : takeWhile p (takeWhile p c).2 = ([], (takeWhile p c).2)

variable [LawfulCursor σ]

theorem takeBounded_eq_iff : takeBounded p max c = (s, d) ↔ Taken p max c s d := by
  constructor
  · intro h
    obtain ⟨rfl, rfl⟩ := Prod.mk.inj h
    obtain ⟨hholds, hlength, hend⟩ := splitWhile_spec p max (rest c)
    exact ⟨(rest_takeBounded p max c).symm, by simp, hholds, hlength, by simpa using hend⟩
  · rintro ⟨hrest, hbeside, hholds, hlength, hend⟩
    have hsplit := splitWhile_eq_iff.2 ⟨hrest, hholds, hlength, hend⟩
    rw [takeBounded, hsplit]
    exact congrArg (Prod.mk s) hbeside.symm

theorem remaining_withRest_lt {x : Char} {t : Text} (h : rest c = x :: t) :
    remaining (withRest c t) < remaining c := by
  rw [remaining, remaining, LawfulCursor.rest_withRest, h]
  exact size_lt_cons x t

theorem takeBounded_withRest (p : Char → Bool) (max : Nat) (c : σ) (t : Text) :
    takeBounded p max (withRest c t) =
      ((splitWhile p max t).1, withRest c (splitWhile p max t).2) := by
  simp [takeBounded]

theorem takeBoth_takeBounded (p : Char → Bool) (m n : Nat) (c : σ) :
    takeBoth (takeBounded p m) (takeBounded p n) c = takeBounded p (m + n) c := by
  have hfirst : takeBounded p m c =
      ((splitWhile p m (rest c)).1, withRest c (splitWhile p m (rest c)).2) := rfl
  rw [takeBoth, hfirst]
  simp only [takeBounded_withRest]
  rw [takeBounded, splitWhile_add]

theorem takeSingly_eq (p : Char → Bool) (max : Nat) (c : σ) :
    takeSingly p max c = takeBounded p max c := by
  induction max generalizing c with
  | zero => simp [takeSingly, takeBounded, splitWhile]
  | succ max ih =>
    rw [takeSingly, takeOne]
    -- A call advances unless the rest stops the predicate, whatever character it gives.
    by_cases hstops : Stops p (rest c)
    · rw [takeOne?_of_not_nextIs hstops]
      simp [takeBounded, splitWhile_of_stops _ hstops]
    · cases hrest : rest c with
      | nil => exact absurd (hrest ▸ stops_nil) hstops
      | cons x t =>
        have hx : p x = true := by simpa [hrest] using hstops
        have hlt := remaining_withRest_lt hrest
        have htake : takeOne? p c = (some x, withRest c t) := by simp [takeOne?, hrest, hx]
        rw [htake]
        simp only [Option.getD_some, if_pos hlt, ih, takeBounded_withRest]
        simp [takeBounded, hrest, splitWhile, hx]

theorem takes_longest (p : Char → Bool) (c : σ) : TakesLongest p c where
  taken_iff _ _ _ := takeBounded_eq_iff
  counted max := by
    rw [splitAtByte?_countTaken, takeBounded]
    simp
  both m n := takeBoth_takeBounded p m n c
  singly max := takeSingly_eq p max c
  unbounded _ := takeBounded_eq
  exhausted := by
    have hstops : Stops p (rest (takeWhile p c).2) := by simpa [takeWhile] using stops_dropWhile
    rw [takeWhile, hstops.takeWhile, hstops.dropWhile, LawfulCursor.withRest_rest]

-- The absent character is taken where it stands in the text.
theorem takes_longest_past_absent :
    takeSingly (fun x => !x.isDigit) 4 (⟨['é', absent, '1'], some ⟨"a digit", 9⟩⟩ : Collecting) =
      (['é', absent], ⟨['1'], some ⟨"a digit", 9⟩⟩) :=
  ((takes_longest (fun x => !x.isDigit)
    (⟨['é', absent, '1'], some ⟨"a digit", 9⟩⟩ : Collecting)).singly 4).trans (by decide)

end Taking

section Peeking

def advancing? (step : σ → σ) : Nat → σ → Option σ
  | 0, c => some c
  | count + 1, c =>
    if remaining (step c) < remaining c then advancing? step count (step c) else none

structure PeeksFirst (count : Nat) (c : σ) : Prop where
  byBytes : ByBytes.peek? count c = some (peek? count c)
  some_iff : ∀ s, peek? count c = some s ↔
    s.length = count ∧ s <+: rest c ∧ s = (takeBounded CharPred.any count c).1
  none_iff : peek? count c = none ↔ (rest c).length < count
  skipped_iff : (peek? count c).isSome ↔ (advancing? skipOne count c).isSome
  skipped_append : ∀ s d, peek? count c = some s → advancing? skipOne count c = some d →
    s ++ rest d = rest c
  mono : ∀ s, peek? count c = some s →
    ∀ fewer, fewer ≤ count → ∃ u, peek? fewer c = some u ∧ u <+: s

theorem peek?_eq_some_iff :
    peek? count c = some s ↔ count ≤ (rest c).length ∧ s = (rest c).take count := by
  unfold peek? take?
  split
  · next h => simp [h, eq_comm]
  · next h => simp [h]

theorem takeBounded_any (count : Nat) (c : σ) :
    (takeBounded CharPred.any count c).1 = (rest c).take count :=
  congrArg Prod.fst (splitWhile_true count (rest c))

theorem peek?_mono (h : peek? count c = some s) {fewer : Nat} (hle : fewer ≤ count) :
    ∃ u, peek? fewer c = some u ∧ u <+: s := by
  obtain ⟨hcount, rfl⟩ := peek?_eq_some_iff.1 h
  exact ⟨_, peek?_eq_some_iff.2 ⟨Nat.le_trans hle hcount, rfl⟩, List.take_prefix_take_left hle⟩

theorem skipOne_of_cons {x : Char} {t : Text} (h : rest c = x :: t) : skipOne c = withRest c t := by
  simp [skipOne, skipOneIf, takeOne?, h]

theorem skipOne_of_nil (h : rest c = []) : skipOne c = c := by
  simp [skipOne, skipOneIf, takeOne?, h]

variable [LawfulCursor σ]

theorem advancing?_skipOne (count : Nat) (c : σ) :
    advancing? skipOne count c =
      if count ≤ (rest c).length then some (withRest c ((rest c).drop count)) else none := by
  induction count generalizing c with
  | zero => simp [advancing?]
  | succ count ih =>
    rw [advancing?]
    cases hrest : rest c with
    | nil => simp [skipOne_of_nil hrest]
    | cons x t =>
      rw [skipOne_of_cons hrest, if_pos (remaining_withRest_lt hrest), ih]
      simp

theorem peeks_first (count : Nat) (c : σ) : PeeksFirst count c where
  byBytes := peek?_eq count c
  some_iff s := by
    rw [peek?_eq_some_iff, takeBounded_any]
    constructor
    · rintro ⟨hcount, rfl⟩
      exact ⟨List.length_take_of_le hcount, List.take_prefix _ _, rfl⟩
    · rintro ⟨hlength, hprefix, hs⟩
      exact ⟨hlength ▸ hprefix.length_le, hs⟩
  none_iff := by
    rw [Option.eq_none_iff_forall_ne_some]
    simp [peek?_eq_some_iff]
  skipped_iff := by
    rw [advancing?_skipOne, peek?, take?]
    split <;> simp
  skipped_append s d hpeek hskip := by
    obtain ⟨hcount, rfl⟩ := peek?_eq_some_iff.1 hpeek
    rw [advancing?_skipOne, if_pos hcount] at hskip
    obtain rfl := Option.some.inj hskip
    rw [LawfulCursor.rest_withRest, List.take_append_drop]
  mono _ h _ := peek?_mono h

theorem peeks_first_up_to_end :
    (advancing? skipOne 2 (⟨['中', '文'], some ⟨"a digit", 9⟩⟩ : Collecting)).isSome = true :=
  (peeks_first 2 (⟨['中', '文'], some ⟨"a digit", 9⟩⟩ : Collecting)).skipped_iff.1 (by decide)

end Peeking

end Cursor

end TextScan
