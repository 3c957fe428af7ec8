import TextScan.Proofs.Cursor.Scanned

namespace TextScan

namespace Text

variable {p : Char → Bool} {max count : Nat} {t u : Text}

def matchedBytes (p : Char → Bool) : Nat → Text → Nat
  | 0, _ => 0
  | _ + 1, [] => 0
  | max + 1, c :: t => if p c then c.utf8Size + matchedBytes p max t else 0

theorem matchedBytes_eq (p : Char → Bool) (max : Nat) (t : Text) :
    matchedBytes p max t = size (splitWhile p max t).1 := by
  fun_induction splitWhile p max t with
  | case1 t => rfl
  | case2 => rfl
  | case3 max c t hc taken rest hsplit ih =>
    rw [matchedBytes, if_pos hc, ih, hsplit]
    rfl
  | case4 max c t hc => rw [matchedBytes, if_neg hc]; rfl

theorem splitAtByte?_matchedBytes (p : Char → Bool) (max : Nat) (t : Text) :
    splitAtByte? t (matchedBytes p max t) = some (splitWhile p max t) :=
  splitAtByte?_eq_some_iff.2 ⟨(splitWhile_append p max t).symm, matchedBytes_eq p max t⟩

theorem splitWhile_true (count : Nat) (t : Text) :
    splitWhile (fun _ => true) count t = (t.take count, t.drop count) := by
  induction count generalizing t with
  | zero => rfl
  | succ count ih =>
    cases t with
    | nil => rfl
    | cons c t => rw [splitWhile, if_pos rfl, ih]; rfl

theorem size_take_lt_iff : size (t.take count) < size t ↔ count < t.length := by
  have hsize : size t = size (t.take count) + size (t.drop count) := by
    rw [← size_append, List.take_append_drop]
  have hdrop : size (t.drop count) = 0 ↔ t.length ≤ count := by
    rw [size_eq_zero_iff, List.drop_eq_nil_iff]
  omega

def Marks (t : Text) (remaining : Nat) : Prop :=
  remaining ≤ t.size ∧ (t.splitAtByte? (t.size - remaining)).isSome

theorem splitAtByte?_of_suffix (h : u <:+ t) :
    u.size ≤ t.size ∧ ∃ before, t.splitAtByte? (t.size - u.size) = some (before, u) := by
  obtain ⟨before, rfl⟩ := h
  rw [size_append, Nat.add_sub_cancel]
  exact ⟨Nat.le_add_left _ _, before, splitAtByte?_append before u⟩

theorem marks_of_suffix (h : u <:+ t) : t.Marks u.size := by
  obtain ⟨hle, before, hsplit⟩ := splitAtByte?_of_suffix h
  exact ⟨hle, by rw [hsplit]; rfl⟩

end Text

namespace Cursor

variable {σ : Type} [Cursor σ]

def leading? (n : Nat) (c : σ) : Option Text :=
  ((rest c).splitAtByte? n).map Prod.fst

namespace ByBytes

def take? (p : Char → Bool) (max : Nat) (c : σ) : Option (Text × σ) := do
  let n := (rest c).matchedBytes p max
  let taken ← leading? n c
  let d ← advance? n c
  some (taken, d)

def takeOne? (p : Char → Bool) (c : σ) : Option (Option Char × σ) := do
  let n := (rest c).matchedBytes p 1
  let taken ← leading? n c
  let d ← advance? n c
  some (taken.head?, d)

def peek? (count : Nat) (c : σ) : Option (Option Text) :=
  let n := (rest c).matchedBytes (fun _ => true) count
  if n < (rest c).size ∨ (rest c).length = count then (leading? n c).map some else some none

def skip? (p : Char → Bool) (max : Nat) (c : σ) : Option σ :=
  advance? ((rest c).matchedBytes p max) c

def skipChar? (x : Char) (c : σ) : Option (Bool × σ) :=
  let n := (rest c).matchedBytes (· == x) 1
  (advance? n c).map fun d => (decide (0 < n), d)

def skipLiteral? (literal : Text) (c : σ) : Option (Bool × σ) :=
  if startsWith literal c then (advance? literal.size c).map fun d => (true, d)
  else some (false, c)

def nextIs (p : Char → Bool) (c : σ) : Bool :=
  decide (0 < (rest c).matchedBytes p 1)

end ByBytes

open Text

variable {p : Char → Bool} {c : σ}

theorem leading?_matchedBytes (p : Char → Bool) (max : Nat) (c : σ) :
    leading? ((rest c).matchedBytes p max) c = some ((rest c).splitWhile p max).1 := by
  rw [leading?, splitAtByte?_matchedBytes]
  rfl

theorem advance?_matchedBytes (p : Char → Bool) (max : Nat) (c : σ) :
    advance? ((rest c).matchedBytes p max) c =
      some (withRest c ((rest c).splitWhile p max).2) := by
  rw [advance?, dropBytes?, splitAtByte?_matchedBytes]
  rfl

example : advance? 1 (['é', 'a'] : Text) = none := by decide

theorem take?_eq (p : Char → Bool) (max : Nat) (c : σ) :
    ByBytes.take? p max c = some (takeBounded p max c) := by
  simp only [ByBytes.take?, leading?_matchedBytes, advance?_matchedBytes]
  rfl

theorem takeBounded_eq {max : Nat} (h : (rest c).length ≤ max) :
    takeBounded p max c = takeWhile p c := by
  rw [takeBounded, splitWhile_eq p h]
  rfl

theorem skip?_eq {max : Nat} (h : (rest c).length ≤ max) :
    ByBytes.skip? p max c = some (skipWhile p c) := by
  rw [ByBytes.skip?, advance?_matchedBytes, splitWhile_eq p h]
  rfl

theorem nextIs_eq (p : Char → Bool) (c : σ) : ByBytes.nextIs p c = nextIs p c := by
  unfold ByBytes.nextIs nextIs
  cases rest c with
  | nil => rfl
  | cons x t =>
    have hx := x.utf8Size_pos
    cases hp : p x with
    | true => simp [matchedBytes, hp]; omega
    | false => simp [matchedBytes, hp]

theorem peek?_eq (count : Nat) (c : σ) : ByBytes.peek? count c = some (peek? count c) := by
  have hn : (rest c).matchedBytes (fun _ => true) count = size ((rest c).take count) := by
    rw [matchedBytes_eq, splitWhile_true]
  have hcomplete : (size ((rest c).take count) < size (rest c) ∨ (rest c).length = count) ↔
      count ≤ (rest c).length := by
    rw [size_take_lt_iff]
    omega
  unfold ByBytes.peek? peek? take?
  simp only [leading?_matchedBytes, splitWhile_true]
  simp only [hn, hcomplete]
  split <;> rfl

theorem skipLiteral?_eq (literal : Text) (c : σ) :
    ByBytes.skipLiteral? literal c = some (skipLiteral literal c) := by
  unfold ByBytes.skipLiteral?
  split
  · next h =>
    obtain ⟨t, ht, hskip⟩ := skipLiteral_of_startsWith h
    rw [hskip, advance?, ht, dropBytes?_append]
    rfl
  · next h => rw [skipLiteral_of_not_startsWith (Bool.eq_false_iff.2 h)]

variable [LawfulCursor σ]

theorem takeOne?_eq_splitWhile (p : Char → Bool) (c : σ) :
    takeOne? p c =
      (((rest c).splitWhile p 1).1.head?, withRest c ((rest c).splitWhile p 1).2) := by
  have hstay := LawfulCursor.withRest_rest c
  unfold takeOne?
  cases hrest : rest c with
  | nil =>
    rw [hrest] at hstay
    simp [splitWhile, hstay]
  | cons x t =>
    rw [hrest] at hstay
    cases hp : p x with
    | true => simp [splitWhile, hp]
    | false => simp [splitWhile, hp, hstay]

theorem takeOne?_eq (p : Char → Bool) (c : σ) :
    ByBytes.takeOne? p c = some (takeOne? p c) := by
  simp only [ByBytes.takeOne?, leading?_matchedBytes, advance?_matchedBytes]
  rw [takeOne?_eq_splitWhile]
  rfl

theorem skipOneIf?_eq (p : Char → Bool) (c : σ) :
    ByBytes.skip? p 1 c = some (skipOneIf p c) := by
  rw [ByBytes.skip?, advance?_matchedBytes, skipOneIf, takeOne?_eq_splitWhile]

theorem skipChar?_eq (x : Char) (c : σ) : ByBytes.skipChar? x c = some (skipChar x c) := by
  have hfound : decide (0 < (rest c).matchedBytes (· == x) 1) = (takeOne? (· == x) c).1.isSome :=
    (nextIs_eq _ c).trans (isSome_takeOne? _ c).symm
  have hskip := skipOneIf?_eq (· == x) c
  rw [ByBytes.skip?] at hskip
  unfold ByBytes.skipChar?
  simp only [hskip, hfound]
  rfl

end Cursor

end TextScan
