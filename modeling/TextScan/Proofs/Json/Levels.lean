import TextScan.Proofs.Json.Document
import TextScan.Proofs.Repetition

namespace TextScan.Json

open Repetition

variable {α : Type} {item item' : Text → Reading (α × Text)} {close : Char}
  {missing : Requirement} {inner inner' : Text → Reading (Json × Text)} {t : Text} {n : Nat}

def Shortens (item : Text → Reading (α × Text)) : Prop :=
  ∀ t a rest, item t = .ok (a, rest) → rest.length ≤ t.length

theorem Shortens.of_readsOnly {R : Text → α → Prop} (h : ReadsOnly item R) : Shortens item := by
  intro t a rest hitem
  obtain ⟨b, u, -, -, rfl⟩ := h t a rest hitem
  simp only [List.length_append]
  omega

theorem consumes_afterComma (h : Shortens item) : Consumes (afterComma item) := by
  intro t a rest hitem
  obtain ⟨b, u, -, rfl, hu⟩ := comma_of_afterComma hitem
  have hle := h u a rest hu
  change rest.length < (b ++ ',' :: u).length
  simp only [List.length_append, List.length_cons]
  omega

theorem length_skipBlank_le (t : Text) : (skipBlank t).length ≤ t.length :=
  (List.dropWhile_sublist _).length_le

theorem afterComma_congr (h : ∀ u : Text, u.length ≤ n → item u = item' u) (ht : t.length ≤ n) :
    afterComma item t = afterComma item' t := by
  have hle := length_skipBlank_le t
  unfold afterComma
  split
  · next rest hrest =>
    rw [hrest, List.length_cons] at hle
    rw [h rest (by omega)]
  · rfl

theorem collect_congr (hitem : ∀ u : Text, u.length ≤ n → item u = item' u) (hshort : Shortens item)
    (limit : Nat) (ht : t.length ≤ n) :
    collect (afterComma item) limit t = collect (afterComma item') limit t := by
  induction limit generalizing t with
  | zero => rfl
  | succ limit ih =>
    rw [collect, collect, ← afterComma_congr hitem ht]
    cases hread : afterComma item t with
    | error fault => rfl
    | ok r =>
      obtain ⟨found, next⟩ := r
      cases found with
      | none => rfl
      | some a =>
        have hlt : next.length < t.length := consumes_afterComma hshort t a next hread
        have hmore : collect (afterComma item) limit next =
            collect (afterComma item') limit next := ih (by omega)
        simp only [bind, Except.bind, hmore]

theorem sequence_congr (hitem : ∀ u : Text, u.length ≤ n → item u = item' u)
    (hshort : Shortens item) (ht : t.length ≤ n) :
    sequence close missing item t = sequence close missing item' t := by
  rw [sequence, sequence, ← hitem t ht]
  split
  · rfl
  · cases hfirst : item t with
    | error fault => rfl
    | ok r =>
      obtain ⟨a, next⟩ := r
      have hle := hshort t a next hfirst
      have hmore : repeated (afterComma item) next = repeated (afterComma item') next :=
        collect_congr hitem hshort _ (by omega)
      simp only [bind, Except.bind, hmore]

theorem element_congr (h : ∀ u : Text, u.length ≤ n → inner u = inner' u) (ht : t.length ≤ n) :
    element inner t = element inner' t :=
  h _ (Nat.le_trans (length_skipBlank_le t) ht)

theorem member_congr (h : ∀ u : Text, u.length ≤ n → inner u = inner' u) (ht : t.length ≤ n) :
    member inner t = member inner' t := by
  have hle := length_skipBlank_le t
  unfold member
  split
  · next rest hrest =>
    rw [hrest, List.length_cons] at hle
    cases hname : Quoted.body rest with
    | error fault => rfl
    | ok r =>
      obtain ⟨name, t₁⟩ := r
      obtain ⟨w, -, rfl⟩ := Quoted.spellings_of_body hname
      cases hcolon : skipMark ':' .colon t₁ with
      | error fault => simp only [bind, Except.bind, hcolon]
      | ok t₂ =>
        obtain ⟨b, -, rfl⟩ := blank_of_skipMark hcolon
        have hle₂ := length_skipBlank_le t₂
        simp only [List.length_append, List.length_cons] at hle
        have hvalue : inner (skipBlank t₂) = inner' (skipBlank t₂) := h _ (by omega)
        simp only [bind, Except.bind, hcolon, hvalue]
  · rfl

theorem valueWith_congr (hreads : ReadsValues inner)
    (h : ∀ u : Text, u.length < t.length → inner u = inner' u) :
    valueWith inner t = valueWith inner' t := by
  unfold valueWith
  split
  · next rest =>
    have hitem : ∀ u : Text, u.length ≤ rest.length → member inner u = member inner' u := by
      intro u hu
      exact member_congr (fun w hw => h w (Nat.lt_succ_of_le hw)) hu
    rw [sequence_congr hitem (.of_readsOnly (readsOnly_member hreads)) (Nat.le_refl _)]
  · next rest =>
    have hitem : ∀ u : Text, u.length ≤ rest.length → element inner u = element inner' u := by
      intro u hu
      exact element_congr (fun w hw => h w (Nat.lt_succ_of_le hw)) hu
    rw [sequence_congr hitem (.of_readsOnly (readsOnly_element hreads)) (Nat.le_refl _)]
  · rfl
  · rfl

theorem valueUpTo_eq_valueWith (h : t.length ≤ n) : valueUpTo n t = valueWith value t := by
  induction n using Nat.strongRecOn generalizing t with
  | ind n ih =>
    cases n with
    | zero =>
      refine valueWith_congr ?_ ?_
      · intro t v rest hread
        simp [fail] at hread
      · intro u hu
        omega
    | succ n =>
      refine valueWith_congr (readsValues_valueUpTo n) ?_
      intro u hu
      rw [value, ih n (Nat.lt_succ_self n) (by omega), ih u.length (by omega) (Nat.le_refl _)]

theorem value_eq_valueWith (t : Text) : value t = valueWith value t :=
  valueUpTo_eq_valueWith (Nat.le_refl _)

end TextScan.Json
