import TextScan.Text.Basic

namespace TextScan.Text

def splitWhile (p : Char → Bool) : Nat → Text → Text × Text
  | 0, t => ([], t)
  | _ + 1, [] => ([], [])
  | max + 1, c :: t =>
    if p c then
      let (taken, rest) := splitWhile p max t
      (c :: taken, rest)
    else ([], c :: t)

theorem splitWhile_append (p : Char → Bool) (max : Nat) (t : Text) :
    (splitWhile p max t).1 ++ (splitWhile p max t).2 = t := by
  fun_induction splitWhile p max t <;> simp_all

theorem splitWhile_eq (p : Char → Bool) {max : Nat} {t : Text} (h : t.length ≤ max) :
    splitWhile p max t = (t.takeWhile p, t.dropWhile p) := by
  fun_induction splitWhile p max t with
  | case1 t => simp_all
  | case2 => simp
  | case3 max c t hc taken rest hsplit ih =>
    have hrec := ih (by simpa using h)
    simp_all
  | case4 max c t hc => simp_all

def dropPrefix? : Text → Text → Option Text
  | [], t => some t
  | _ :: _, [] => none
  | a :: start, c :: t => if a = c then dropPrefix? start t else none

theorem dropPrefix?_eq_some_iff {start t u : Text} :
    dropPrefix? start t = some u ↔ t = start ++ u := by
  fun_induction dropPrefix? start t with
  | case1 t => simp [eq_comm]
  | case2 a start => simp
  | case3 start c t ih => simp [ih]
  | case4 a start c t h => simp [Ne.symm h]

@[simp] theorem dropPrefix?_append (start t : Text) : dropPrefix? start (start ++ t) = some t :=
  dropPrefix?_eq_some_iff.2 rfl

theorem dropPrefix?_eq_none_iff {start t : Text} :
    dropPrefix? start t = none ↔ ¬ start <+: t := by
  constructor
  · rintro h ⟨u, rfl⟩
    rw [dropPrefix?_append] at h
    cases h
  · intro h
    cases hu : dropPrefix? start t with
    | none => rfl
    | some u => exact absurd ⟨u, (dropPrefix?_eq_some_iff.1 hu).symm⟩ h

def take? (count : Nat) (t : Text) : Option Text :=
  if count ≤ t.length then some (t.take count) else none

end TextScan.Text
