import TextScan.Json.Reader
import TextScan.Proofs.Json.Numeral
import TextScan.Proofs.Outcome

namespace TextScan.Json

open Grammar Text CharClass

variable {α : Type} {item : Text → Reading (α × Text)} {R : Text → α → Prop}
  {close mark : Char} {missing : Requirement} {t rest : Text}

theorem skipMark_append {b : Text} (hb : Blank b) (hmark : isBlank mark = false) :
    skipMark mark missing (b ++ mark :: rest) = .ok rest := by
  rw [skipMark, skipBlank, hb.dropWhile_append (stops_cons.2 hmark)]
  exact if_pos rfl

theorem skipMark_stops {b : Text} {c : Char} (hb : Blank b) (hc : isBlank c = false)
    (hne : c ≠ mark) : skipMark mark missing (b ++ c :: t) = fail missing (c :: t) := by
  rw [skipMark, skipBlank, hb.dropWhile_append (stops_cons.2 hc)]
  exact if_neg hne

theorem blank_of_skipMark (h : skipMark mark missing t = .ok rest) :
    ∃ b, Blank b ∧ t = b ++ mark :: rest := by
  obtain ⟨b, ht, hb, -⟩ := Blank.exists_append t
  refine ⟨b, hb, ?_⟩
  unfold skipMark skipBlank at h
  split at h
  · simp [fail] at h
  · next c r hr =>
    split at h
    · next hc =>
      obtain rfl := Except.ok.inj h
      rw [ht, hr, hc]
    · simp [fail] at h

theorem afterComma_append {b : Text} (hb : Blank b) :
    afterComma item (b ++ ',' :: t) = (item t).map fun (a, rest) => (some a, rest) := by
  rw [afterComma, skipBlank, hb.dropWhile_append (stops_cons.2 (by decide))]
  rfl

theorem afterComma_stops {b : Text} {c : Char} (hb : Blank b) (hc : isBlank c = false)
    (hne : c ≠ ',') : afterComma item (b ++ c :: t) = .ok (none, c :: t) := by
  rw [afterComma, skipBlank, hb.dropWhile_append (stops_cons.2 hc)]
  split
  · next heq => exact absurd (List.cons.inj heq).1 hne
  · rfl

theorem comma_of_afterComma {a : α} (h : afterComma item t = .ok (some a, rest)) :
    ∃ b u, Blank b ∧ t = b ++ ',' :: u ∧ item u = .ok (a, rest) := by
  obtain ⟨b, ht, hb, -⟩ := Blank.exists_append t
  unfold afterComma skipBlank at h
  split at h
  · next u hu =>
    rw [hu] at ht
    refine ⟨b, u, hb, ht, ?_⟩
    obtain ⟨⟨a', rest'⟩, hitem, heq⟩ := map_eq_ok_iff.1 h
    obtain ⟨ha, rfl⟩ := Prod.mk.inj heq
    obtain rfl := Option.some.inj ha
    exact hitem
  · simp at h

def ReadsOnly (item : Text → Reading (α × Text)) (R : Text → α → Prop) : Prop :=
  ∀ t a rest, item t = .ok (a, rest) → ∃ b u, Blank b ∧ R u a ∧ t = b ++ (u ++ rest)

def ReadsUpTo (n : Nat) (item : Text → Reading (α × Text)) (R : Text → α → Prop) : Prop :=
  ∀ b u a rest, u.length ≤ n → Blank b → R u a → Stops Numeral.isNumeralChar rest →
    item (b ++ (u ++ rest)) = .ok (a, rest)

theorem separated_of_collect (hitem : ReadsOnly item R) {limit : Nat} {as : List α}
    {b' : Text} (hb' : Blank b')
    (h : Repetition.collect (afterComma item) limit t = .ok (as, b' ++ rest))
    {b u : Text} {a : α} (hb : Blank b) (ha : R u a) :
    ∃ w, t = w ++ rest ∧ Separated R (b ++ (u ++ w)) (a :: as) := by
  induction limit generalizing t as b u a with
  | zero =>
    obtain ⟨rfl, rfl⟩ := Prod.mk.inj (Except.ok.inj h)
    exact ⟨b', rfl, .last hb ha hb'⟩
  | succ limit ih =>
    obtain ⟨⟨found, next⟩, hcomma, h⟩ := bind_eq_ok_iff.1 h
    cases found with
    | none =>
      obtain ⟨rfl, rfl⟩ := Prod.mk.inj (Except.ok.inj h)
      exact ⟨b', rfl, .last hb ha hb'⟩
    | some a' =>
      obtain ⟨⟨more, last⟩, hmore, h⟩ := bind_eq_ok_iff.1 h
      obtain ⟨rfl, rfl⟩ := Prod.mk.inj (Except.ok.inj h)
      obtain ⟨c, v, hc, rfl, hv⟩ := comma_of_afterComma hcomma
      obtain ⟨b₁, u₁, hb₁, ha', rfl⟩ := hitem _ _ _ hv
      obtain ⟨w, rfl, hw⟩ := ih hmore hb₁ ha'
      refine ⟨c ++ ',' :: (b₁ ++ (u₁ ++ w)), ?_, .more hb ha hc hw⟩
      simp only [List.append_assoc, List.cons_append]

theorem listed_of_sequence (hitem : ReadsOnly item R) {as : List α}
    (h : sequence close missing item t = .ok (as, rest)) :
    ∃ u, t = u ++ close :: rest ∧ Listed R u as := by
  unfold sequence at h
  split at h
  · next r hr =>
    obtain ⟨rfl, rfl⟩ := Prod.mk.inj (Except.ok.inj h)
    obtain ⟨b, hb, rfl⟩ := blank_of_skipMark hr
    exact ⟨b, rfl, .inl ⟨rfl, hb⟩⟩
  · obtain ⟨⟨a, t₁⟩, hfirst, h⟩ := bind_eq_ok_iff.1 h
    obtain ⟨⟨more, t₂⟩, hmore, h⟩ := bind_eq_ok_iff.1 h
    obtain ⟨t₃, hclose, h⟩ := bind_eq_ok_iff.1 h
    obtain ⟨rfl, rfl⟩ := Prod.mk.inj (Except.ok.inj h)
    obtain ⟨b', hb', rfl⟩ := blank_of_skipMark hclose
    obtain ⟨b, u, hb, ha, rfl⟩ := hitem _ _ _ hfirst
    obtain ⟨w, rfl, hw⟩ := separated_of_collect hitem hb' hmore hb ha
    refine ⟨b ++ (u ++ w), ?_, .inr hw⟩
    simp only [List.append_assoc]

def IsClose (c : Char) : Prop :=
  c = ']' ∨ c = '}'

namespace IsClose

theorem notBlank (h : IsClose close) : isBlank close = false := by
  rcases h with rfl | rfl <;> decide

theorem ne_comma (h : IsClose close) : close ≠ ',' := by
  rcases h with rfl | rfl <;> decide

theorem notNumeral (h : IsClose close) : Numeral.isNumeralChar close = false := by
  rcases h with rfl | rfl <;> decide

end IsClose

theorem stops_blank_append {b : Text} {c : Char} (hb : Blank b)
    (hc : Numeral.isNumeralChar c = false) : Stops Numeral.isNumeralChar (b ++ c :: t) :=
  stops_append (hb.stops fun _ => Numeral.isNumeralChar_of_isBlank) (stops_cons.2 hc)

def Opens (close : Char) (R : Text → α → Prop) : Prop :=
  ∀ u a, R u a → ∃ c v, u = c :: v ∧ isBlank c = false ∧ c ≠ close

theorem length_le_of_separated {u : Text} {as : List α} (h : Separated R u as) :
    as.length ≤ u.length + 1 := by
  induction h with
  | last => simp
  | more _ _ _ _ ih =>
    simp only [List.length_append, List.length_cons]
    omega

theorem collect_of_separated (missing : Requirement) (rest : Text) {n : Nat}
    (hclose : IsClose close) (hitem : ReadsUpTo n item R) {u : Text} {as : List α}
    (h : Separated R u as) (hn : u.length ≤ n) :
    ∃ a more t₁, as = a :: more ∧ item (u ++ close :: rest) = .ok (a, t₁) ∧
      more.length < t₁.length ∧
      ∀ limit, more.length < limit →
        ∃ t₂, Repetition.collect (afterComma item) limit t₁ = .ok (more, t₂) ∧
          skipMark close missing t₂ = .ok rest := by
  induction h with
  | @last b t b' a hb ha hb' =>
    have hread : item (b ++ (t ++ (b' ++ close :: rest))) = .ok (a, b' ++ close :: rest) := by
      refine hitem b t a _ ?_ hb ha (stops_blank_append hb' hclose.notNumeral)
      simp only [List.length_append] at hn
      omega
    refine ⟨a, [], b' ++ close :: rest, rfl, ?_, ?_, ?_⟩
    · simpa only [List.append_assoc] using hread
    · simp only [List.length_append, List.length_cons, List.length_nil]
      omega
    · intro limit hlimit
      obtain ⟨limit, rfl⟩ : ∃ k, limit = k + 1 := Nat.exists_eq_add_one.2 hlimit
      refine ⟨b' ++ close :: rest, ?_, skipMark_append hb' hclose.notBlank⟩
      simp only [Repetition.collect, afterComma_stops hb' hclose.notBlank hclose.ne_comma]
      rfl
  | @more b t b' w a as hb ha hb' hw ih =>
    simp only [List.length_append, List.length_cons] at hn
    have hread : item (b ++ (t ++ (b' ++ ',' :: (w ++ close :: rest)))) =
        .ok (a, b' ++ ',' :: (w ++ close :: rest)) :=
      hitem b t a _ (by omega) hb ha (stops_blank_append hb' (by decide))
    obtain ⟨a₁, more, t₁, rfl, hfirst, -, hmore⟩ := ih (by omega)
    refine ⟨a, a₁ :: more, b' ++ ',' :: (w ++ close :: rest), rfl, ?_, ?_, ?_⟩
    · simpa only [List.append_assoc, List.cons_append] using hread
    · have hlength := length_le_of_separated hw
      simp only [List.length_append, List.length_cons] at hlength ⊢
      omega
    · intro limit hlimit
      obtain ⟨limit, rfl⟩ : ∃ k, limit = k + 1 := Nat.exists_eq_add_one.2 (by omega)
      obtain ⟨t₂, hcollect, hmark⟩ := hmore limit (by simpa using hlimit)
      refine ⟨t₂, ?_, hmark⟩
      simp only [Repetition.collect, afterComma_append hb', hfirst, Except.map, bind, Except.bind,
        hcollect]
      rfl

theorem sequence_of_listed {n : Nat} (hclose : IsClose close) (hopens : Opens close R)
    (hitem : ReadsUpTo n item R) {u : Text} {as : List α} (h : Listed R u as)
    (hn : u.length ≤ n) : sequence close missing item (u ++ close :: rest) = .ok (as, rest) := by
  rcases h with ⟨rfl, hb⟩ | h
  · rw [sequence, skipMark_append hb hclose.notBlank]
  · obtain ⟨c, v, b, hsplit, hb, hc, hne⟩ : ∃ c v b,
        u ++ close :: rest = b ++ c :: v ∧ Blank b ∧ isBlank c = false ∧ c ≠ close := by
      cases h with
      | last hb ha =>
        obtain ⟨c, v, rfl, hc, hne⟩ := hopens _ _ ha
        exact ⟨c, _, _, by rw [List.append_assoc]; rfl, hb, hc, hne⟩
      | more hb ha =>
        obtain ⟨c, v, rfl, hc, hne⟩ := hopens _ _ ha
        exact ⟨c, _, _, by rw [List.append_assoc]; rfl, hb, hc, hne⟩
    have hmiss : skipMark close missing (b ++ c :: v) = fail missing (c :: v) :=
      skipMark_stops hb hc hne
    rw [← hsplit] at hmiss
    obtain ⟨a, more, t₁, rfl, hfirst, hlt, hcollect⟩ :=
      collect_of_separated missing rest hclose hitem h hn
    obtain ⟨t₂, hmore, hmark⟩ := hcollect (t₁.length + 1) (by omega)
    have hrepeated : Repetition.repeated (afterComma item) t₁ = .ok (more, t₂) := hmore
    rw [sequence, hmiss]
    simp only [fail, hfirst, hrepeated, hmark, bind, Except.bind]

end TextScan.Json
