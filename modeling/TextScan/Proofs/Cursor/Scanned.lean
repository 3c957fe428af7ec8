import TextScan.Cursor.Policy
import TextScan.Proofs.Outcome

namespace TextScan

open Cursor Run

class LawfulPolicy (σ : Type) [Policy σ] : Prop extends LawfulCursor σ where
  rest_start (t : Text) : rest (Policy.start t : σ) = t
  fault?_start (t : Text) : Policy.fault? (Policy.start t : σ) = none
  fault?_withRest (c : σ) (t : Text) : Policy.fault? (withRest c t) = Policy.fault? c
  require_true (expected : String) (c : σ) : Policy.require true expected c = pure c
  require_false (expected : String) (c : σ) :
    (Policy.require false expected c).outcome = .error (Fault.before (rest c) expected) ∨
      ∃ d, (Policy.require false expected c).outcome = .ok d ∧ rest d = rest c ∧
        Policy.fault? d = (Policy.fault? c).or (some (Fault.before (rest c) expected))
  absorb_eq (fault : Fault) (c : σ) :
    (Policy.absorb fault c).outcome = .error fault ∨
      ∃ d, (Policy.absorb fault c).outcome = .ok d ∧ rest d = rest c ∧
        Policy.fault? d = (Policy.fault? c).or (some (Fault.before (rest c) fault.expected))

attribute [simp] LawfulPolicy.rest_start LawfulPolicy.fault?_start LawfulPolicy.fault?_withRest

instance : LawfulPolicy Text where
  rest_start _ := rfl
  fault?_start _ := rfl
  fault?_withRest _ _ := rfl
  require_true _ _ := rfl
  require_false _ _ := .inl rfl
  absorb_eq _ _ := .inl rfl

theorem Collecting.outcome_record (fault : Fault) (c : Collecting) :
    (record fault c).outcome = .ok { c with slot := c.slot.or (some fault) } := by
  obtain ⟨t, slot⟩ := c
  cases slot <;> rfl

instance : LawfulPolicy Collecting where
  rest_start _ := rfl
  fault?_start _ := rfl
  fault?_withRest _ _ := rfl
  require_true _ _ := rfl
  require_false _ c := .inr ⟨_, Collecting.outcome_record _ c, rfl, rfl⟩
  absorb_eq _ c := .inr ⟨_, Collecting.outcome_record _ c, rfl, rfl⟩

namespace Cursor

variable {σ : Type}

section Scans

variable [Cursor σ] {p : Char → Bool} {c d : σ}

def Scanned (c d : σ) : Prop :=
  ∃ t, t <:+ rest c ∧ d = withRest c t

theorem scanned_takeWhile (p : Char → Bool) (c : σ) : Scanned c (takeWhile p c).2 :=
  ⟨_, List.dropWhile_suffix p, rfl⟩

theorem scanned_takeBounded (p : Char → Bool) (max : Nat) (c : σ) :
    Scanned c (takeBounded p max c).2 :=
  ⟨_, ⟨_, Text.splitWhile_append p max (rest c)⟩, rfl⟩

theorem scanned_advance? {n : Nat} (h : advance? n c = some d) : Scanned c d := by
  obtain ⟨t, ht, rfl⟩ := Option.map_eq_some_iff.1 h
  obtain ⟨⟨before, after⟩, hsplit, rfl⟩ := Option.map_eq_some_iff.1 ht
  exact ⟨after, ⟨before, (Text.append_of_splitAtByte? hsplit).1.symm⟩, rfl⟩

theorem isSome_takeOne? (p : Char → Bool) (c : σ) : (takeOne? p c).1.isSome = nextIs p c := by
  unfold takeOne? nextIs
  cases rest c with
  | nil => rfl
  | cons x t => cases hx : p x <;> simp [hx]

theorem takeOne?_of_not_nextIs (h : nextIs p c = false) : takeOne? p c = (none, c) := by
  unfold nextIs at h
  unfold takeOne?
  split
  · next x t hrest =>
    rw [hrest] at h
    rw [if_neg (by simpa using h)]
  · rfl

theorem skipChar_of_not_nextIs {x : Char} (h : nextIs (· == x) c = false) :
    skipChar x c = (false, c) := by
  rw [skipChar, takeOne?_of_not_nextIs h]
  rfl

theorem skipLiteral_of_not_startsWith {literal : Text} (h : startsWith literal c = false) :
    skipLiteral literal c = (false, c) := by
  have hnone : Text.dropPrefix? literal (rest c) = none := by
    rw [Text.dropPrefix?_eq_none_iff, ← List.isPrefixOf_iff_prefix]
    exact Bool.not_eq_true _ ▸ h
  rw [skipLiteral, hnone]

theorem skipLiteral_of_startsWith {literal : Text} (h : startsWith literal c = true) :
    ∃ t, rest c = literal ++ t ∧ skipLiteral literal c = (true, withRest c t) := by
  obtain ⟨t, ht⟩ := List.isPrefixOf_iff_prefix.1 h
  have hsome : Text.dropPrefix? literal (rest c) = some t := Text.dropPrefix?_eq_some_iff.2 ht.symm
  exact ⟨t, ht.symm, by rw [skipLiteral, hsome]⟩

variable [LawfulCursor σ]

theorem Scanned.refl (c : σ) : Scanned c c :=
  ⟨rest c, List.suffix_rfl, (LawfulCursor.withRest_rest c).symm⟩

theorem Scanned.rest_suffix (h : Scanned c d) : rest d <:+ rest c := by
  obtain ⟨t, ht, rfl⟩ := h
  simpa using ht

theorem scanned_takeOne? (p : Char → Bool) (c : σ) : Scanned c (takeOne? p c).2 := by
  unfold takeOne?
  split
  · next x t hrest =>
    split
    · exact ⟨t, hrest ▸ List.suffix_cons x t, rfl⟩
    · exact .refl c
  · exact .refl c

theorem scanned_skipLiteral (literal : Text) (c : σ) : Scanned c (skipLiteral literal c).2 := by
  cases h : startsWith literal c with
  | true =>
    obtain ⟨t, ht, hskip⟩ := skipLiteral_of_startsWith h
    rw [hskip]
    exact ⟨t, ⟨literal, ht.symm⟩, rfl⟩
  | false =>
    rw [skipLiteral_of_not_startsWith h]
    exact .refl c

end Scans

section Policies

variable [Policy σ] [LawfulPolicy σ] {c d : σ} {expected : String}

theorem Scanned.fault?_eq (h : Scanned c d) : Policy.fault? d = Policy.fault? c := by
  obtain ⟨t, -, rfl⟩ := h
  exact LawfulPolicy.fault?_withRest c t

theorem of_require_false (h : (Policy.require false expected c).outcome = .ok d) :
    rest d = rest c ∧
      Policy.fault? d = (Policy.fault? c).or (some (Fault.before (rest c) expected)) := by
  rcases LawfulPolicy.require_false expected c with herror | ⟨e, he, hrest, hfault⟩
  · rw [herror] at h
    cases h
  · obtain rfl := Except.ok.inj (he.symm.trans h)
    exact ⟨hrest, hfault⟩

end Policies

end Cursor

end TextScan
