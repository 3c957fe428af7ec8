/-!
Lengths and positions in a text count UTF-8 bytes.
-/

namespace TextScan

abbrev Text := List Char

namespace Text

def size : Text → Nat
  | [] => 0
  | c :: t => c.utf8Size + size t

@[simp] theorem size_nil : size [] = 0 := rfl

@[simp] theorem size_cons (c : Char) (t : Text) : size (c :: t) = c.utf8Size + size t := rfl

@[simp] theorem size_append (t u : Text) : size (t ++ u) = size t + size u := by
  induction t with
  | nil => simp
  | cons c t ih => simp [ih, Nat.add_assoc]

theorem length_le_size (t : Text) : t.length ≤ size t := by
  induction t with
  | nil => simp
  | cons c t ih =>
    have hc := c.utf8Size_pos
    simp only [List.length_cons, size_cons]
    omega

theorem size_eq_length {t : Text} (h : ∀ c ∈ t, c.utf8Size = 1) : size t = t.length := by
  induction t with
  | nil => rfl
  | cons c t ih =>
    rw [List.forall_mem_cons] at h
    rw [size_cons, h.1, ih h.2, List.length_cons, Nat.add_comm]

@[simp] theorem size_eq_zero_iff {t : Text} : size t = 0 ↔ t = [] := by
  cases t with
  | nil => simp
  | cons c t =>
    have hc := c.utf8Size_pos
    simp only [size_cons, reduceCtorEq, iff_false]
    omega

theorem size_lt_append {u : Text} (hu : u ≠ []) (t : Text) : size t < size (u ++ t) := by
  have hpos := mt size_eq_zero_iff.1 hu
  rw [size_append]
  omega

theorem size_lt_cons (c : Char) (t : Text) : size t < size (c :: t) :=
  size_lt_append (List.cons_ne_nil c []) t

theorem size_le_of_suffix {t u : Text} (h : u <:+ t) : size u ≤ size t := by
  obtain ⟨v, rfl⟩ := h
  rw [size_append]
  exact Nat.le_add_left _ _

def splitAtByte? : Text → Nat → Option (Text × Text)
  | t, 0 => some ([], t)
  | [], _ + 1 => none
  | c :: t, n + 1 =>
    if c.utf8Size ≤ n + 1 then
      (splitAtByte? t (n + 1 - c.utf8Size)).map fun (before, after) => (c :: before, after)
    else none

theorem splitAtByte?_append (t u : Text) : splitAtByte? (t ++ u) (size t) = some (t, u) := by
  induction t with
  | nil => cases u <;> rfl
  | cons c t ih =>
    have hc := c.utf8Size_pos
    obtain ⟨n, hn⟩ : ∃ n, size (c :: t) = n + 1 := ⟨size (c :: t) - 1, by simp; omega⟩
    rw [hn, List.cons_append, splitAtByte?, ← hn]
    simp [ih]

theorem append_of_splitAtByte? {t u v : Text} {n : Nat} (h : splitAtByte? t n = some (u, v)) :
    t = u ++ v ∧ n = size u := by
  fun_induction splitAtByte? t n generalizing u v with
  | case1 => simp_all
  | case2 => simp at h
  | case3 c t n hle ih =>
    obtain ⟨⟨w, x⟩, hw, he⟩ := Option.map_eq_some_iff.1 h
    obtain ⟨rfl, rfl⟩ := Prod.mk.inj he
    obtain ⟨rfl, hn⟩ := ih hw
    refine ⟨rfl, ?_⟩
    simp only [size_cons]
    omega
  | case4 => simp at h

theorem splitAtByte?_eq_some_iff {t u v : Text} {n : Nat} :
    splitAtByte? t n = some (u, v) ↔ t = u ++ v ∧ n = size u := by
  constructor
  · exact append_of_splitAtByte?
  · rintro ⟨rfl, rfl⟩
    exact splitAtByte?_append u v

def dropBytes? (t : Text) (n : Nat) : Option Text :=
  (splitAtByte? t n).map Prod.snd

theorem dropBytes?_append (t u : Text) : dropBytes? (t ++ u) (size t) = some u := by
  simp [dropBytes?, splitAtByte?_append]

end Text

end TextScan
