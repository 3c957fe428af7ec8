import TextScan.Proofs.Clocked
import TextScan.Proofs.Repetition

namespace TextScan.Repetition

open Cursor Clocked

section Chain

variable {σ ε α : Type} {item : σ → Except ε (Option α × σ)} {limit : Nat} {as : List α} {a : α}
  {c d e : σ} {cs : List σ} {fault : ε}

def asked (item : σ → Except ε (Option α × σ)) (c : σ) : Clocked ε σ (Option α × σ) :=
  comes (item c) [c]

def Passed (item : σ → Except ε (Option α × σ)) (c : σ) (as : List α) (cs : List σ) : Prop :=
  cs.length = as.length ∧ ∀ i x, cs[i]? = some x → Matches item c (as.take i) x

theorem passed_nil : Passed item c [] [] := by
  refine ⟨rfl, ?_⟩
  intro i x hx
  cases hx

theorem Passed.concat (hpassed : Passed item c as cs) (h : Matches item c as d) (a : α) :
    Passed item c (as ++ [a]) (cs ++ [d]) := by
  obtain ⟨hlength, hat⟩ := hpassed
  refine ⟨by simp [hlength], ?_⟩
  intro i x hx
  rcases Nat.lt_trichotomy i cs.length with hlt | heq | hgt
  · rw [List.getElem?_append_left hlt] at hx
    rw [List.take_append_of_le_length (by omega)]
    exact hat i x hx
  · subst heq
    rw [List.getElem?_concat_length] at hx
    obtain rfl := Option.some.inj hx
    rw [List.take_left' hlength.symm]
    exact h
  · have hle : (cs ++ [d]).length ≤ i := by
      rw [List.length_append, List.length_singleton]
      omega
    rw [List.getElem?_eq_none hle] at hx
    cases hx

theorem many_of_matches (h : Matches item c as d) :
    ∃ cs, Passed item c as cs ∧ ∀ clock found,
      many (asked item) (as.length + clock) found c =
        (many (asked item) clock (found ++ as) d).behind cs := by
  induction h with
  | start => exact ⟨[], passed_nil, fun clock found => by simp⟩
  | @next as a d e hmatches hlast ih =>
    obtain ⟨cs, hpassed, hmany⟩ := ih
    refine ⟨cs ++ [d], hpassed.concat hmatches a, ?_⟩
    intro clock found
    have hclock : (as ++ [a]).length + clock = as.length + (clock + 1) := by
      simp only [List.length_append, List.length_singleton]
      omega
    have hask : asked item d = comes (.ok (some a, e)) [d] := congrArg (comes · [d]) hlast
    rw [hclock, hmany, many_of_some hask, behind_behind, List.append_assoc]

theorem many_stopped (h : Matches item c as d) {clock : Nat} (hle : clock ≤ as.length) :
    many (asked item) clock [] c = stopped := by
  obtain ⟨cs, ⟨hlength, hat⟩, -⟩ := many_of_matches h
  have hmatches : ∃ x, Matches item c (as.take clock) x := by
    rcases Nat.lt_or_eq_of_le hle with hlt | rfl
    · exact ⟨cs[clock], hat clock _ (List.getElem?_eq_getElem (by omega))⟩
    · exact ⟨d, by rwa [List.take_length]⟩
  obtain ⟨x, hx⟩ := hmatches
  obtain ⟨cs', -, hmany⟩ := many_of_matches hx
  have hzero := hmany 0 []
  rw [List.length_take, Nat.min_eq_left hle, Nat.add_zero, many_zero, behind_stopped] at hzero
  exact hzero

theorem collect_of_matches (h : Matches item c as d) (limit : Nat) :
    collect item (as.length + limit) c =
      (collect item limit d).map fun r => (as ++ r.1, r.2) := by
  induction h generalizing limit with
  | start =>
    rw [List.length_nil, Nat.zero_add]
    cases collect item limit c <;> rfl
  | @next as a d e _ hlast ih =>
    have hlimit : (as ++ [a]).length + limit = as.length + (limit + 1) := by
      simp only [List.length_append, List.length_singleton]
      omega
    rw [hlimit, ih, collect_of_some hlast]
    cases collect item limit e with
    | error fault => rfl
    | ok r => simp [Except.map]

def EndsIn (item : σ → Except ε (Option α × σ)) (c : σ) (as : List α) (d : σ)
    (r : Except ε (List α × σ)) : Prop :=
  ∃ cs, Passed item c as cs ∧
    (∀ clock, as.length < clock → many (asked item) clock [] c = comes r (cs ++ [d])) ∧
    ∀ limit, as.length < limit → collect item limit c = r

theorem endsIn_of_matches {r : Except ε (List α × σ)} (h : Matches item c as d)
    (hmany : ∀ clock, many (asked item) (clock + 1) as d = comes r [d])
    (hcollect : ∀ limit, (collect item (limit + 1) d).map (fun q => (as ++ q.1, q.2)) = r) :
    EndsIn item c as d r := by
  obtain ⟨cs, hpassed, hrun⟩ := many_of_matches h
  refine ⟨cs, hpassed, ?_, ?_⟩
  · intro clock hlt
    obtain ⟨more, rfl⟩ := Nat.exists_eq_add_of_lt hlt
    rw [Nat.add_assoc, hrun, List.nil_append, hmany, behind_comes]
  · intro limit hlt
    obtain ⟨more, rfl⟩ := Nat.exists_eq_add_of_lt hlt
    rw [Nat.add_assoc, collect_of_matches h, hcollect]

theorem endsIn_of_none (h : Matches item c as d) (hd : item d = .ok (none, e)) :
    EndsIn item c as d (.ok (as, d)) := by
  refine endsIn_of_matches h (fun _ => many_of_none (congrArg (comes · [d]) hd)) ?_
  intro limit
  rw [collect_of_none hd]
  exact congrArg (fun bs => Except.ok (bs, d)) (List.append_nil as)

theorem endsIn_of_error (h : Matches item c as d) (hd : item d = .error fault) :
    EndsIn item c as d (.error fault) := by
  refine endsIn_of_matches h (fun _ => many_of_error (congrArg (comes · [d]) hd)) ?_
  intro limit
  rw [collect_of_error hd]
  rfl

end Chain

section Progress

variable {σ ε α : Type} {item : σ → Except ε (Option α × σ)} {size : σ → Nat} {as : List α}
  {c d : σ}

def Shrinks (size : σ → Nat) (item : σ → Except ε (Option α × σ)) (c : σ) : Prop :=
  ∀ as d a e, Matches item c as d → item d = .ok (some a, e) → size e < size d

theorem length_add_size_le (hshrinks : Shrinks size item c) (h : Matches item c as d) :
    as.length + size d ≤ size c := by
  induction h with
  | start => simp
  | next hmatches hlast ih =>
    have hlt := hshrinks _ _ _ _ hmatches hlast
    simp only [List.length_append, List.length_singleton]
    omega

theorem exists_unmatched (hshrinks : Shrinks size item c) (hmatches : Matches item c as d) :
    ∃ bs e, Matches item c bs e ∧ ∀ a next, item e ≠ .ok (some a, next) := by
  induction hn : size d using Nat.strongRecOn generalizing as d with
  | ind n ih =>
    by_cases hmore : ∃ a e, item d = .ok (some a, e)
    · obtain ⟨a, e, hitem⟩ := hmore
      have hlt := hshrinks _ _ _ _ hmatches hitem
      exact ih (size e) (by omega) (.next hmatches hitem) rfl
    · exact ⟨as, d, hmatches, fun a e hitem => hmore ⟨a, e, hitem⟩⟩

theorem exists_endsIn (hshrinks : Shrinks size item c) :
    ∃ as d r, Matches item c as d ∧ as.length ≤ size c ∧ EndsIn item c as d r := by
  obtain ⟨as, d, hmatches, hend⟩ := exists_unmatched hshrinks .start
  have hle := length_add_size_le hshrinks hmatches
  cases hd : item d with
  | error fault => exact ⟨as, d, _, hmatches, by omega, endsIn_of_error hmatches hd⟩
  | ok r =>
    obtain ⟨a?, e⟩ := r
    cases a? with
    | some a => exact absurd hd (hend a e)
    | none => exact ⟨as, d, _, hmatches, by omega, endsIn_of_none hmatches hd⟩

end Progress

structure CollectsMatches {σ ε α : Type} [Cursor σ] (item : σ → Except ε (Option α × σ)) (c : σ) :
    Prop where
  running : ∀ as d, Matches item c as d → ∀ clock, clock ≤ as.length →
    many (asked item) clock [] c = stopped
  matched : ∀ as d e, Matches item c as d → item d = .ok (none, e) →
    EndsIn item c as d (.ok (as, d))
  failed : ∀ as d fault, Matches item c as d → item d = .error fault →
    EndsIn item c as d (.error fault)
  shrinking : Shrinks remaining item c →
    ∃ as d r, Matches item c as d ∧ as.length ≤ remaining c ∧ EndsIn item c as d r
  consuming : Consumes item →
    ∃ as d, Matches item c as d ∧ EndsIn item c as d (repeated item c)

theorem CollectsMatches.of_item {σ ε α : Type} [Cursor σ] (item : σ → Except ε (Option α × σ))
    (c : σ) : CollectsMatches item c where
  running as d hmatches clock := many_stopped hmatches
  matched as d e := endsIn_of_none
  failed as d fault := endsIn_of_error
  shrinking := exists_endsIn
  consuming := by
    intro hconsumes
    have hshrinks : Shrinks (fun d => (rest d).length) item c :=
      fun as d a e _ hitem => hconsumes d a e hitem
    obtain ⟨as, d, r, hmatches, hle, cs, hpassed, hmany, hcollect⟩ := exists_endsIn hshrinks
    obtain rfl := hcollect _ (Nat.lt_succ_of_le hle)
    exact ⟨as, d, hmatches, cs, hpassed, hmany, hcollect⟩

section Total

variable {σ α : Type} {item : σ → Id (Option α × σ)} {limit : Nat} {a : α} {c e : σ}

def total (item : σ → Id (Option α × σ)) (c : σ) : Except Empty (Option α × σ) :=
  .ok (item c)

theorem collect_total (item : σ → Id (Option α × σ)) (limit : Nat) (c : σ) :
    collect (total item) limit c = .ok (collect item limit c) := by
  induction limit generalizing c with
  | zero => rfl
  | succ limit ih =>
    have hbind : ∀ f : Option α × σ → Id (List α × σ), item c >>= f = f (item c) := fun _ => rfl
    rcases hitem : item c with ⟨_ | a, e⟩
    · rw [collect_of_none (congrArg Except.ok hitem), collect, hbind, hitem]
      rfl
    · rw [collect_of_some (congrArg Except.ok hitem), ih, collect, hbind, hitem]
      rfl

end Total

theorem collects_matches {σ ε α : Type} [Cursor σ] (c : σ) :
    (∀ item : σ → Except ε (Option α × σ), CollectsMatches item c) ∧
    ∀ item : σ → Id (Option α × σ), CollectsMatches (total item) c ∧
      ∀ as d e, Matches (total item) c as d → item d = (none, e) →
        EndsIn (total item) c as d (.ok (as, d)) ∧
          ∀ limit, as.length < limit → collect item limit c = (as, d) := by
  refine ⟨fun item => .of_item item c, fun item => ⟨.of_item _ c, ?_⟩⟩
  intro as d e hmatches hend
  have hends := endsIn_of_none hmatches (congrArg Except.ok hend)
  refine ⟨hends, ?_⟩
  intro limit hlt
  obtain ⟨cs, -, -, hcollect⟩ := hends
  exact Except.ok.inj ((collect_total item limit c).symm.trans (hcollect limit hlt))

end TextScan.Repetition
