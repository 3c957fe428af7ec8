import TextScan.Text.Prefix

namespace TextScan.Text

variable {p : Char → Bool} {t u : Text}

def Stops (p : Char → Bool) (t : Text) : Prop :=
  t.head?.any p = false

@[simp] theorem stops_nil : Stops p [] := rfl

@[simp] theorem stops_cons {c : Char} : Stops p (c :: t) ↔ p c = false := by
  simp [Stops]

theorem Stops.head {c : Char} (h : Stops p (c :: t)) : p c = false :=
  stops_cons.1 h

theorem Stops.mono {q : Char → Bool} (h : Stops p t) (hpq : ∀ c, q c = true → p c = true) :
    Stops q t := by
  cases t with
  | nil => exact stops_nil
  | cons c t =>
    rw [stops_cons] at h ⊢
    cases hq : q c with
    | false => rfl
    | true => rw [hpq c hq] at h; exact h

theorem stops_of_forall (h : ∀ c ∈ t, p c = false) : Stops p t := by
  cases t with
  | nil => exact stops_nil
  | cons c t => exact stops_cons.2 (h c (by simp))

theorem stops_append (h : Stops p t) (hu : Stops p u) : Stops p (t ++ u) := by
  cases t with
  | nil => exact hu
  | cons c t => exact stops_cons.2 h.head

theorem stops_left (h : Stops p t) (hu : u <+: t) : Stops p u := by
  obtain ⟨v, rfl⟩ := hu
  cases u with
  | nil => exact stops_nil
  | cons c u => exact stops_cons.2 h.head

theorem stops_dropWhile : Stops p (t.dropWhile p) := by
  induction t with
  | nil => exact stops_nil
  | cons c t ih =>
    rw [List.dropWhile_cons]
    split
    · exact ih
    · next hc => simpa using hc

theorem Stops.takeWhile (h : Stops p t) : t.takeWhile p = [] := by
  cases t with
  | nil => rfl
  | cons c t => rw [List.takeWhile_cons, h.head]; rfl

theorem Stops.dropWhile (h : Stops p t) : t.dropWhile p = t := by
  cases t with
  | nil => rfl
  | cons c t => rw [List.dropWhile_cons, h.head]; rfl

theorem takeWhile_append_stops (hu : ∀ c ∈ u, p c = true) (ht : Stops p t) :
    (u ++ t).takeWhile p = u := by
  rw [List.takeWhile_append_of_pos hu, ht.takeWhile, List.append_nil]

theorem dropWhile_append_stops (hu : ∀ c ∈ u, p c = true) (ht : Stops p t) :
    (u ++ t).dropWhile p = t := by
  rw [List.dropWhile_append_of_pos hu, ht.dropWhile]

theorem exists_split_at_stop (p : Char → Bool) (t : Text) :
    ∃ u v, t = u ++ v ∧ (∀ c ∈ u, p c = true) ∧ Stops p v ∧
      t.takeWhile p = u ∧ t.dropWhile p = v :=
  ⟨t.takeWhile p, t.dropWhile p, List.takeWhile_append_dropWhile.symm,
    List.all_eq_true.1 List.all_takeWhile, stops_dropWhile, rfl, rfl⟩

theorem exists_common_part {literal t : Text} (h : ¬ literal <+: t) :
    ∃ part rest, t = part ++ rest ∧ part <+: literal ∧ part ≠ literal ∧
      ∀ c more z, rest = c :: more → ¬ literal <+: part ++ c :: z := by
  induction literal generalizing t with
  | nil => exact absurd List.nil_prefix h
  | cons a literal ih =>
    cases t with
    | nil =>
      refine ⟨[], [], rfl, List.nil_prefix, by simp, ?_⟩
      intro c more z hc
      cases hc
    | cons c t =>
      by_cases hc : a = c
      · subst hc
        have hrest : ¬ literal <+: t := fun hl => h (List.cons_prefix_cons.2 ⟨rfl, hl⟩)
        obtain ⟨part, rest, rfl, hpart, hne, hlimit⟩ := ih hrest
        refine ⟨a :: part, rest, rfl, List.cons_prefix_cons.2 ⟨rfl, hpart⟩, by simpa using hne, ?_⟩
        intro d more z hd hl
        exact hlimit d more z hd (List.cons_prefix_cons.1 hl).2
      · refine ⟨[], c :: t, rfl, List.nil_prefix, by simp, ?_⟩
        intro d more z hd hl
        obtain rfl := (List.cons.inj hd).1
        exact hc (List.cons_prefix_cons.1 hl).1

end TextScan.Text
