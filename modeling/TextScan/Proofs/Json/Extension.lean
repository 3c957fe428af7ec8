import TextScan.Proofs.Json.Numeral
import TextScan.Proofs.Outcome
/-!
Readings of a text and of a longer one that starts with it. As long as the shorter text is not read
to its end both go the same way, so they leave the same or fail in the same place. What is put
together from readers of this kind is of this kind again.
-/

namespace TextScan.Json

open Text CharClass

variable {α β : Type} {t s u rest : Text} {x y : Reading (α × Text)}

def left : Reading (α × Text) → Nat
  | .ok (_, rest) => rest.size
  | .error fault => fault.remaining

-- A lexeme that goes to the end of a text and is refused there may be refused for another reason
-- when the text goes on with more of it.
inductive Reworded : String → String → Text → Text → Prop
  | number {r r' : Requirement} {back s : Text} {c : Char} : r ∈ [.numberShape, .numberRange] →
      r' ∈ [.numberShape, .numberRange] → (∀ d ∈ back, Numeral.isNumeralChar d = true) →
      Numeral.isNumeralChar c = true → Reworded r.text r'.text back (c :: s)
  | hexDigits {r : Requirement} {back s : Text} {c : Char} : r ∈ [.scalar, .lowSurrogate] →
      (∀ d ∈ back, isHexDigit d = true) → back.length < 4 → isHexDigit c = true →
      Reworded Requirement.fourHexDigits.text r.text back (c :: s)

-- What comes of a text and of the same text with more behind it. In the first two cases the
-- shorter text was read to its end, or the longer one is read past that end.
inductive Extended (t s : Text) : Reading (α × Text) → Reading (α × Text) → Prop
  | ended {x y : Reading (α × Text)} : left x = 0 → Extended t s x y
  | reached {x y : Reading (α × Text)} : left y ≤ s.size → Extended t s x y
  | ok {u rest : Text} {a : α} : t = u ++ rest → Extended t s (.ok (a, rest)) (.ok (a, rest ++ s))
  | error {front back : Text} {fault fault' : Fault} : t = front ++ back →
      fault.remaining = back.size → fault'.remaining = (back ++ s).size →
      fault'.expected = fault.expected ∨ Reworded fault.expected fault'.expected back s →
      Extended t s (.error fault) (.error fault')

def Steady (r : Text → Reading (α × Text)) : Prop :=
  ∀ t s, Extended t s (r t) (r (t ++ s))

theorem Extended.append_left (u : Text) (h : Extended t s x y) : Extended (u ++ t) s x y := by
  cases h with
  | ended h => exact .ended h
  | reached h => exact .reached h
  | ok ht => exact .ok (by rw [ht, List.append_assoc])
  | error ht hfault hfault' hmessage =>
    exact .error (by rw [ht, List.append_assoc]) hfault hfault' hmessage

theorem Extended.refused {m m' : Requirement}
    (h : m'.text = m.text ∨ Reworded m.text m'.text t s) :
    Extended (α := α) t s (fail m t) (fail m' (t ++ s)) :=
  .error (List.nil_append t).symm rfl rfl h

theorem Extended.fail (m : Requirement) (t s : Text) :
    Extended (α := α) t s (fail m t) (fail m (t ++ s)) :=
  .refused (.inl rfl)

theorem Extended.left_le (h : Extended t [] x y) (hxy : x = y) : left x ≤ t.size := by
  cases h with
  | ended h => exact Nat.le_trans (Nat.le_of_eq h) (Nat.zero_le _)
  | reached h =>
    rw [hxy]
    exact Nat.le_trans h (Nat.zero_le _)
  | ok ht =>
    rw [ht, size_append]
    exact Nat.le_add_left _ _
  | error ht hfault =>
    rw [ht, size_append]
    exact Nat.le_trans (Nat.le_of_eq hfault) (Nat.le_add_left _ _)

theorem Steady.left_le {r : Text → Reading (α × Text)} (h : Steady r) (t : Text) :
    left (r t) ≤ t.size :=
  (h t []).left_le (by rw [List.append_nil])

theorem Extended.suffix {a : α} (h : Extended t [] x y) (hxy : x = y)
    (hx : x = .ok (a, rest)) : rest <:+ t := by
  have hnone : left x = 0 → rest <:+ t := by
    intro hleft
    rw [hx] at hleft
    rw [size_eq_zero_iff.1 hleft]
    exact List.nil_suffix
  cases h with
  | ended hleft => exact hnone hleft
  | reached hleft =>
    rw [← hxy] at hleft
    exact hnone (Nat.le_zero.1 hleft)
  | @ok u rest' a' ht =>
    obtain ⟨-, rfl⟩ := Prod.mk.inj (Except.ok.inj hx)
    exact ⟨u, ht.symm⟩
  | error => cases hx

theorem Steady.suffix {r : Text → Reading (α × Text)} {a : α} (h : Steady r)
    (hread : r t = .ok (a, rest)) : rest <:+ t :=
  (h t []).suffix (by rw [List.append_nil]) hread

theorem left_map (f : α → β) (x : Reading (α × Text)) :
    left (x.map fun q => (f q.1, q.2)) = left x := by
  cases x <;> rfl

theorem Extended.map (f : α → β) (h : Extended t s x y) :
    Extended t s (x.map fun q => (f q.1, q.2)) (y.map fun q => (f q.1, q.2)) := by
  cases h with
  | ended h => exact .ended ((left_map f x).trans h)
  | reached h => exact .reached (Nat.le_trans (Nat.le_of_eq (left_map f y)) h)
  | ok ht => exact .ok ht
  | error ht hfault hfault' hmessage => exact .error ht hfault hfault' hmessage

theorem left_bind_le {k : α × Text → Reading (β × Text)} {n : Nat} (hx : left x ≤ n)
    (hk : ∀ a rest, x = .ok (a, rest) → left (k (a, rest)) ≤ rest.size) : left (x >>= k) ≤ n := by
  cases x with
  | error fault => exact hx
  | ok r => exact Nat.le_trans (hk r.1 r.2 rfl) hx

theorem Extended.bind {k : α × Text → Reading (β × Text)} (h : Extended t s x y)
    (hleft : ∀ a rest, left (k (a, rest)) ≤ rest.size)
    (hk : ∀ a u rest, t = u ++ rest → x = .ok (a, rest) →
      Extended rest s (k (a, rest)) (k (a, rest ++ s))) :
    Extended t s (x >>= k) (y >>= k) := by
  cases h with
  | ended h =>
    have hle := left_bind_le (Nat.le_of_eq h) fun a rest _ => hleft a rest
    exact .ended (Nat.le_zero.1 hle)
  | reached h => exact .reached (left_bind_le h fun a rest _ => hleft a rest)
  | @ok u rest a ht =>
    rw [ht]
    exact (hk a u rest ht rfl).append_left u
  | error ht hfault hfault' hmessage => exact .error ht hfault hfault' hmessage

section Steady

variable {r : Text → Reading (α × Text)} {k : α → Text → Reading (β × Text)}

theorem Steady.bind (h : Steady r) (hk : ∀ a, Steady (k a)) :
    Steady fun t => r t >>= fun q => k q.1 q.2 := by
  intro t s
  refine (h t s).bind (fun a => (hk a).left_le) ?_
  intro a u rest _ _
  exact hk a rest s

theorem steady_ok (a : α) : Steady fun t => .ok (a, t) :=
  fun _ _ => .ok (u := []) rfl

theorem Steady.map (f : α → β) (h : Steady r) :
    Steady fun t => (r t).map fun q => (f q.1, q.2) :=
  fun t s => (h t s).map f

theorem steady_fail (m : Requirement) : Steady (fail m : Text → Reading (α × Text)) :=
  fun t s => .fail m t s

theorem steady_of_cons (hnil : left (r []) = 0)
    (hcons : ∀ c t s, Extended (c :: t) s (r (c :: t)) (r (c :: (t ++ s)))) : Steady r := by
  intro t s
  cases t with
  | nil => exact .ended hnil
  | cons c t => exact hcons c t s

end Steady

end TextScan.Json
