import TextScan.Text.Basic

namespace TextScan

variable {accepts : Text → Prop} {t u w : Text}

def Viable (accepts : Text → Prop) (t : Text) : Prop :=
  ∃ z, accepts (t ++ z)

theorem Viable.of_append (h : Viable accepts (t ++ u)) : Viable accepts t := by
  obtain ⟨z, hz⟩ := h
  exact ⟨u ++ z, by rwa [← List.append_assoc]⟩

structure LongestViable (accepts : Text → Prop) (t w : Text) : Prop where
  start : w <+: t
  viable : Viable accepts w
  longest : ∀ v, v <+: t → Viable accepts v → v <+: w

theorem LongestViable.of_limit (hviable : Viable accepts w)
    (hlimit : ∀ c more, t = c :: more → ¬ Viable accepts (w ++ [c])) :
    LongestViable accepts (w ++ t) w := by
  refine ⟨List.prefix_append w t, hviable, ?_⟩
  intro v hv hviable'
  rcases List.prefix_or_prefix_of_prefix hv (List.prefix_append w t) with h | ⟨x, rfl⟩
  · exact h
  · obtain ⟨y, hy⟩ := (List.prefix_append_right_inj w).1 hv
    cases x with
    | nil => simp
    | cons c x =>
      rw [List.append_cons] at hviable'
      exact absurd hviable'.of_append (hlimit c (x ++ y) hy.symm)

-- Goes forward as long as one more character is viable; `u` is as far as that can be.
theorem exists_longestViable (hviable : Viable accepts w)
    (hlimit : ∀ c more, t = c :: more → ¬ Viable accepts (w ++ (u ++ [c]))) :
    ∃ v, v <+: u ∧ LongestViable accepts (w ++ (u ++ t)) (w ++ v) := by
  induction u generalizing w with
  | nil =>
    refine ⟨[], List.nil_prefix, ?_⟩
    rw [List.append_nil, List.nil_append]
    exact .of_limit hviable hlimit
  | cons d u ih =>
    by_cases hd : Viable accepts (w ++ [d])
    · obtain ⟨v, hv, hlongest⟩ := ih hd (by simpa using hlimit)
      refine ⟨d :: v, (List.cons_prefix_cons).2 ⟨rfl, hv⟩, ?_⟩
      simpa using hlongest
    · refine ⟨[], List.nil_prefix, ?_⟩
      rw [List.append_nil]
      refine .of_limit hviable ?_
      intro c more hc
      obtain rfl := (List.cons.inj hc).1
      exact hd

end TextScan
