import TextScan.Proofs.Outcome
import TextScan.Repetition

namespace TextScan.Repetition

open Cursor

section Matches

variable {σ ε α : Type} {item : σ → Except ε (Option α × σ)} {limit : Nat} {as : List α} {a : α}
  {c d e : σ} {fault : ε}

inductive Matches (item : σ → Except ε (Option α × σ)) (c : σ) : List α → σ → Prop
  | start : Matches item c [] c
  | next {as : List α} {a : α} {d e : σ} :
    Matches item c as d → item d = .ok (some a, e) → Matches item c (as ++ [a]) e

theorem collect_of_some (h : item c = .ok (some a, e)) :
    collect item (limit + 1) c = (collect item limit e).map fun r => (a :: r.1, r.2) := by
  rw [collect, h]
  simp only [bind, Except.bind]
  cases collect item limit e <;> rfl

theorem collect_of_none (h : item c = .ok (none, e)) :
    collect item (limit + 1) c = .ok ([], c) := by
  rw [collect, h]
  rfl

theorem collect_of_error (h : item c = .error fault) :
    collect item (limit + 1) c = .error fault := by
  rw [collect, h]
  rfl

theorem Matches.cons (ha : item c = .ok (some a, d)) (h : Matches item d as e) :
    Matches item c (a :: as) e := by
  induction h with
  | start => exact .next .start ha
  | next _ hlast ih => exact .next ih hlast

theorem matches_of_collect (h : collect item limit c = .ok (as, e)) :
    Matches item c as e ∧
      (as.length = limit ∨ as.length < limit ∧ ∃ d, item e = .ok (none, d)) := by
  induction limit generalizing as c with
  | zero =>
    obtain ⟨rfl, rfl⟩ := Prod.mk.inj (Except.ok.inj h)
    exact ⟨.start, .inl rfl⟩
  | succ limit ih =>
    rw [collect, bind_eq_ok_iff] at h
    obtain ⟨⟨found, d⟩, hitem, h⟩ := h
    cases found with
    | none =>
      obtain ⟨rfl, rfl⟩ := Prod.mk.inj (Except.ok.inj h)
      exact ⟨.start, .inr ⟨Nat.succ_pos limit, d, hitem⟩⟩
    | some a =>
      obtain ⟨⟨more, last⟩, hmore, heq⟩ := bind_eq_ok_iff.1 h
      obtain ⟨rfl, rfl⟩ := Prod.mk.inj (Except.ok.inj heq)
      obtain ⟨hmatches, hend⟩ := ih hmore
      exact ⟨hmatches.cons hitem, hend.imp (congrArg (· + 1)) (.imp_left Nat.succ_lt_succ)⟩

theorem matches_of_collect_error (h : collect item limit c = .error fault) :
    ∃ as d, Matches item c as d ∧ as.length < limit ∧ item d = .error fault := by
  induction limit generalizing c with
  | zero => cases h
  | succ limit ih =>
    rcases bind_eq_error_iff.1 h with hitem | ⟨⟨found, d⟩, hitem, h⟩
    · exact ⟨[], c, .start, Nat.succ_pos limit, hitem⟩
    · cases found with
      | none => cases h
      | some a =>
        rcases bind_eq_error_iff.1 h with hmore | ⟨_, _, heq⟩
        · obtain ⟨as, e, hmatches, hlt, he⟩ := ih hmore
          exact ⟨a :: as, e, hmatches.cons hitem, Nat.succ_lt_succ hlt, he⟩
        · cases heq

theorem outcome_collect (item : σ → Run (Option α × σ)) (limit : Nat) (c : σ) :
    (collect item limit c).outcome = collect (fun d => (item d).outcome) limit c := by
  induction limit generalizing c with
  | zero => rfl
  | succ limit ih =>
    rw [collect, collect, Run.outcome_bind]
    refine congrArg ((item c).outcome >>= ·) (funext fun r => ?_)
    obtain ⟨found, next⟩ := r
    cases found with
    | none => rfl
    | some a =>
      simp only [Run.outcome_bind, ih]
      rfl

end Matches

variable {σ ε α : Type} [Cursor σ] {item : σ → Except ε (Option α × σ)} {c d next : σ} {a : α}

def Consumes (item : σ → Except ε (Option α × σ)) : Prop :=
  ∀ c a next, item c = .ok (some a, next) → (rest next).length < (rest c).length

theorem collect_eq_collect (h : Consumes item) {n m : Nat} (hn : (rest c).length < n)
    (hm : (rest c).length < m) : collect item n c = collect item m c := by
  induction n generalizing m c with
  | zero => exact absurd hn (Nat.not_lt_zero _)
  | succ n ih =>
    cases m with
    | zero => exact absurd hm (Nat.not_lt_zero _)
    | succ m =>
      cases hitem : item c with
      | error e => rw [collect_of_error hitem, collect_of_error hitem]
      | ok r =>
        obtain ⟨found, next⟩ := r
        cases found with
        | none => rw [collect_of_none hitem, collect_of_none hitem]
        | some a =>
          have hlt := h c a next hitem
          have hmore : collect item n next = collect item m next := ih (by omega) (by omega)
          rw [collect_of_some hitem, collect_of_some hitem, hmore]

theorem repeated_of_error {e : ε} (h : item c = .error e) : repeated item c = .error e :=
  collect_of_error h

theorem repeated_of_none (h : item c = .ok (none, d)) : repeated item c = .ok ([], c) :=
  collect_of_none h

theorem repeated_of_some (hitem : Consumes item) (h : item c = .ok (some a, next)) :
    repeated item c = (repeated item next).map fun r => (a :: r.1, r.2) := by
  have hmore : collect item (rest c).length next = repeated item next :=
    collect_eq_collect hitem (hitem c a next h) (Nat.lt_succ_self _)
  rw [repeated, collect_of_some h, hmore]

end TextScan.Repetition
