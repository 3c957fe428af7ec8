import TextScan.Text.Lines

namespace TextScan.Text

variable {t line : Text} {above below : List Text} {p q : Nat}

theorem lines_eq_splitOn (t : Text) : lines t = t.splitOn '\n' := by
  induction t with
  | nil => rfl
  | cons c t ih =>
    have hne := lines_ne_nil t
    rw [List.splitOn_cons_eq_if_modifyHead, ← ih, lines]
    by_cases hc : c = '\n'
    · rw [if_pos hc, if_pos (beq_iff_eq.2 hc)]
    · rw [if_neg hc, if_neg (by simpa using hc)]
      cases hl : lines t with
      | nil => exact absurd hl hne
      | cons l ls => rfl

theorem newline_not_mem (h : line ∈ lines t) : '\n' ∉ line := by
  fun_induction lines t generalizing line with
  | case1 => simp_all
  | case2 t ih =>
    rcases List.mem_cons.1 h with rfl | h
    · simp
    · exact ih h
  | case3 c t hc l ls hl ih =>
    rcases List.mem_cons.1 h with rfl | h
    · have hline := ih (hl ▸ List.mem_cons_self)
      simp [Ne.symm hc, hline]
    · exact ih (hl ▸ List.mem_cons_of_mem l h)
  | case4 c t hc hl => exact absurd hl (lines_ne_nil t)

def ended (ls : List Text) : Text :=
  ls.flatMap (· ++ ['\n'])

def begun (ls : List Text) : Text :=
  ls.flatMap ('\n' :: ·)

@[simp] theorem ended_nil : ended [] = [] := rfl

@[simp] theorem ended_cons (line : Text) (ls : List Text) :
    ended (line :: ls) = line ++ '\n' :: ended ls := by
  simp [ended]

theorem ended_concat (ls : List Text) (line : Text) :
    ended (ls ++ [line]) = ended ls ++ line ++ ['\n'] := by
  simp [ended]

@[simp] theorem begun_nil : begun [] = [] := rfl

@[simp] theorem begun_cons (line : Text) (ls : List Text) :
    begun (line :: ls) = '\n' :: (line ++ begun ls) := by
  simp [begun]

theorem size_newline_cons (t : Text) : size ('\n' :: t) = 1 + t.size := rfl

theorem size_ended_cons (line : Text) (ls : List Text) :
    (ended (line :: ls)).size = line.size + 1 + (ended ls).size := by
  rw [ended_cons, size_append, size_newline_cons, Nat.add_assoc]

theorem ended_eq_nil_or_concat (ls : List Text) : ended ls = [] ∨ ∃ u, ended ls = u ++ ['\n'] := by
  rcases List.eq_nil_or_concat ls with rfl | ⟨ls, line, rfl⟩
  · exact .inl rfl
  · rw [List.concat_eq_append, ended_concat]
    exact .inr ⟨_, rfl⟩

theorem count_ended (h : ∀ line ∈ above, '\n' ∉ line) :
    (ended above).count '\n' = above.length := by
  induction above with
  | nil => rfl
  | cons line above ih =>
    rw [List.forall_mem_cons] at h
    rw [ended_cons, List.count_append, List.count_eq_zero.2 h.1, List.count_cons_self, ih h.2,
      List.length_cons, Nat.zero_add]

theorem intercalate_append (above : List Text) (line : Text) (below : List Text) :
    ['\n'].intercalate (above ++ line :: below) = ended above ++ (line ++ begun below) := by
  induction above generalizing line with
  | nil =>
    induction below generalizing line with
    | nil => simp
    | cons next below ih =>
      rw [List.nil_append, List.intercalate_cons_cons]
      simpa using ih next
  | cons first above ih =>
    cases above with
    | nil => simpa [List.intercalate_cons_cons] using ih line
    | cons second above =>
      rw [List.cons_append, List.cons_append, List.intercalate_cons_cons, ← List.cons_append, ih]
      simp

theorem eq_of_lines (h : lines t = above ++ line :: below) :
    t = ended above ++ (line ++ begun below) := by
  have hjoin : ['\n'].intercalate (t.splitOn '\n') = t := List.intercalate_splitOn '\n'
  rw [← hjoin, ← lines_eq_splitOn, h, intercalate_append]

section Positions

theorem splitAtByte?_append_add (t u : Text) (q : Nat) :
    splitAtByte? (t ++ u) (t.size + q) =
      (splitAtByte? u q).map fun (before, after) => (t ++ before, after) := by
  induction t with
  | nil => simp
  | cons c t ih =>
    have hc := c.utf8Size_pos
    obtain ⟨n, hn⟩ : ∃ n, size (c :: t) + q = n + 1 := ⟨size (c :: t) + q - 1, by simp; omega⟩
    have hrest : n + 1 - c.utf8Size = size t + q := by
      rw [← hn, size_cons]
      omega
    have hle : c.utf8Size ≤ n + 1 := by
      rw [← hn, size_cons]
      omega
    rw [hn, List.cons_append, splitAtByte?, if_pos hle, hrest, ih, Option.map_map]
    rfl

theorem splitAtByte?_append_left (h : q ≤ t.size) (u : Text) :
    splitAtByte? (t ++ u) q =
      (splitAtByte? t q).map fun (before, after) => (before, after ++ u) := by
  fun_induction splitAtByte? t q with
  | case1 t => simp [splitAtByte?]
  | case2 n => simp at h
  | case3 c t n hle ih =>
    rw [List.cons_append, splitAtByte?, if_pos hle, ih (by simp at h; omega), Option.map_map,
      Option.map_map]
    rfl
  | case4 c t n hle =>
    rw [List.cons_append, splitAtByte?, if_neg hle]
    rfl

/-- The byte position `p` lies `q` bytes into a line of the text. -/
structure OnLine (t : Text) (p : Nat) (above : List Text) (line : Text) (below : List Text)
    (q : Nat) : Prop where
  lines_eq : lines t = above ++ line :: below
  position_eq : p = (ended above).size + q
  le_size : q ≤ line.size

theorem exists_line (h : p ≤ (line ++ begun below).size) :
    ∃ before found after q, line :: below = before ++ found :: after ∧
      p = (ended before).size + q ∧ q ≤ found.size := by
  induction below generalizing line p with
  | nil => exact ⟨[], line, [], p, rfl, by simp, by simpa using h⟩
  | cons next below ih =>
    by_cases hp : p ≤ line.size
    · exact ⟨[], line, next :: below, p, rfl, by simp, hp⟩
    · rw [begun_cons, size_append, size_newline_cons] at h
      have hnext : p - line.size - 1 ≤ (next ++ begun below).size := by omega
      obtain ⟨before, found, after, q, hlines, hq, hle⟩ := ih hnext
      refine ⟨line :: before, found, after, q, by rw [hlines]; rfl, ?_, hle⟩
      rw [size_ended_cons]
      omega

theorem exists_onLine (h : p ≤ t.size) : ∃ above line below q, OnLine t p above line below q := by
  obtain ⟨first, ls, hlines⟩ := List.exists_cons_of_ne_nil (lines_ne_nil t)
  have ht : t = ended [] ++ (first ++ begun ls) := eq_of_lines hlines
  rw [ended_nil, List.nil_append] at ht
  rw [ht] at h
  obtain ⟨above, line, below, q, hsplit, hposition, hle⟩ := exists_line h
  exact ⟨above, line, below, q, hlines.trans hsplit, hposition, hle⟩

namespace OnLine

variable (h : OnLine t p above line below q)
include h

theorem text_eq : t = ended above ++ (line ++ begun below) :=
  eq_of_lines h.lines_eq

theorem newline_not_mem_above : ∀ l ∈ above, '\n' ∉ l := by
  intro l hl
  exact newline_not_mem (by rw [h.lines_eq]; exact List.mem_append_left _ hl)

theorem newline_not_mem_line : '\n' ∉ line :=
  newline_not_mem (by rw [h.lines_eq]; exact List.mem_append_right _ List.mem_cons_self)

theorem splitAtByte?_eq : splitAtByte? t p =
    (splitAtByte? line q).map fun (before, after) =>
      (ended above ++ before, after ++ begun below) := by
  rw [h.text_eq, h.position_eq, splitAtByte?_append_add, splitAtByte?_append_left h.le_size,
    Option.map_map]
  rfl

end OnLine

end Positions

end TextScan.Text
