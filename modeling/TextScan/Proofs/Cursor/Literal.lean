import TextScan.Proofs.Cursor.Bytes
import TextScan.Proofs.Text.Utf8

namespace TextScan

namespace Text

theorem dropPrefix?_append_start (a b t : Text) :
    dropPrefix? (a ++ b) t = (dropPrefix? a t).bind (dropPrefix? b) := by
  fun_induction dropPrefix? a t with
  | case1 t => rfl
  | case2 x a => rfl
  | case3 a x t ih => rw [List.cons_append, dropPrefix?, if_pos rfl, ih]
  | case4 x a y t hne => rw [List.cons_append, dropPrefix?, if_neg hne]; rfl

end Text

namespace Cursor

open Text

variable {σ : Type} [Cursor σ]

namespace ByBytes

def startsWith (literal : Text) (c : σ) : Bool :=
  (bytes literal).isPrefixOf (bytes (rest c))

def passLiteral? (literal : Text) (c : σ) : Option (Bool × σ) :=
  if startsWith literal c then (advance? (bytes literal).length c).map fun d => (true, d)
  else some (false, c)

theorem startsWith_eq (literal : Text) (c : σ) :
    startsWith literal c = Cursor.startsWith literal c := by
  rw [Bool.eq_iff_iff, startsWith, Cursor.startsWith, List.isPrefixOf_iff_prefix,
    List.isPrefixOf_iff_prefix, bytes_prefix_iff]

theorem passLiteral?_eq (literal : Text) (c : σ) :
    passLiteral? literal c = some (skipLiteral literal c) := by
  rw [passLiteral?, startsWith_eq, length_bytes]
  exact skipLiteral?_eq literal c

end ByBytes

def skipBoth (first second : σ → Bool × σ) (c : σ) : Bool × σ :=
  match first c with
  | (false, _) => (false, c)
  | (true, d) =>
    match second d with
    | (false, _) => (false, c)
    | (true, e) => (true, e)

def skipChars? : Text → σ → Option σ
  | [], c => some c
  | x :: literal, c =>
    let (found, d) := skipChar x c
    if found then skipChars? literal d else none

theorem skipLiteral_eq (literal : Text) (c : σ) :
    skipLiteral literal c =
      (dropPrefix? literal (rest c)).elim (false, c) fun t => (true, withRest c t) := by
  unfold skipLiteral
  cases dropPrefix? literal (rest c) <;> rfl

theorem fst_skipLiteral (literal : Text) (c : σ) :
    (skipLiteral literal c).1 = startsWith literal c := by
  cases h : startsWith literal c with
  | true =>
    obtain ⟨t, -, hskip⟩ := skipLiteral_of_startsWith h
    rw [hskip]
  | false => rw [skipLiteral_of_not_startsWith h]

theorem skipChar_eq (x : Char) (c : σ) : skipChar x c = skipLiteral [x] c := by
  rw [skipLiteral_eq]
  unfold skipChar takeOne?
  cases rest c with
  | nil => rfl
  | cons y t =>
    by_cases hy : y = x
    · simp [dropPrefix?, hy]
    · simp [dropPrefix?, hy, Ne.symm hy]

variable [LawfulCursor σ]

theorem skipLiteral_eq_skipBoth (a b : Text) (c : σ) :
    skipLiteral (a ++ b) c = skipBoth (skipLiteral a) (skipLiteral b) c := by
  unfold skipBoth
  rw [skipLiteral_eq, skipLiteral_eq, dropPrefix?_append_start]
  cases dropPrefix? a (rest c) with
  | none => rfl
  | some t =>
    simp only [Option.bind_some, Option.elim_some, skipLiteral_eq, LawfulCursor.rest_withRest]
    cases dropPrefix? b t with
    | none => rfl
    | some u => simp

theorem skipLiteral_eq_skipChars? (literal : Text) (c : σ) :
    skipLiteral literal c = (skipChars? literal c).elim (false, c) fun d => (true, d) := by
  induction literal generalizing c with
  | nil => simp [skipLiteral, dropPrefix?, skipChars?]
  | cons x literal ih =>
    rw [← List.singleton_append, skipLiteral_eq_skipBoth, skipBoth, ← skipChar_eq,
      List.singleton_append, skipChars?]
    rcases skipChar x c with ⟨found, d⟩
    cases found with
    | false => rfl
    | true =>
      simp only [ih d, if_pos]
      cases skipChars? literal d <;> rfl

structure SkipsAtOnce (c : σ) : Prop where
  both : ∀ a b, skipLiteral (a ++ b) c = skipBoth (skipLiteral a) (skipLiteral b) c
  one_by_one : ∀ literal,
    skipLiteral literal c = (skipChars? literal c).elim (false, c) fun d => (true, d)
  found_iff : ∀ literal, (skipLiteral literal c).1 = true ↔ literal <+: rest c
  startsWith_eq : ∀ literal, startsWith literal c = (skipLiteral literal c).1
  byBytes : ∀ literal, ByBytes.passLiteral? literal c = some (skipLiteral literal c)
  char_byBytes : ∀ x, ByBytes.skipChar? x c = some (skipChar x c)

theorem skips_at_once (c : σ) : SkipsAtOnce c where
  both a b := skipLiteral_eq_skipBoth a b c
  one_by_one literal := skipLiteral_eq_skipChars? literal c
  found_iff literal := by rw [fst_skipLiteral, startsWith, List.isPrefixOf_iff_prefix]
  startsWith_eq literal := (fst_skipLiteral literal c).symm
  byBytes literal := ByBytes.passLiteral?_eq literal c
  char_byBytes x := skipChar?_eq x c

-- Both characters have the same first byte.
theorem skips_at_once_shared_byte :
    skipLiteral ['é', 'è'] (⟨['é', 'ê'], some ⟨"a digit", 9⟩⟩ : Collecting) =
      (false, ⟨['é', 'ê'], some ⟨"a digit", 9⟩⟩) :=
  ((skips_at_once (⟨['é', 'ê'], some ⟨"a digit", 9⟩⟩ : Collecting)).both ['é'] ['è']).trans
    (by decide)

end Cursor

end TextScan
