import TextScan.Proofs.Json.Levels
import TextScan.Proofs.Json.Unfinished

namespace TextScan.Json

open Grammar Text CharClass Repetition

variable {α : Type} {item : Text → Reading (α × Text)} {inner : Text → Reading (Json × Text)}
  {close : Char} {missing : Requirement} {b t x rest : Text} {v : Json}

theorem isGlue_of_isBlank {c : Char} (h : isBlank c = true) : isGlue c = true := by
  rw [isGlue, h, Bool.or_true]

theorem isGlue_of_isNumeralChar {c : Char} (h : Numeral.isNumeralChar c = true) :
    isGlue c = true := by
  rw [isGlue, h, Bool.true_or]

theorem IsClose.notGlue (h : IsClose close) : isGlue close = false := by
  rw [isGlue, h.notNumeral, h.notBlank]
  rfl

theorem stops_of_follows {p : Char → Bool} (h : Follows isGlue rest x)
    (hp : ∀ c, p c = true → isGlue c = true) (hrest : Stops p rest) : Stops p x := by
  rcases h with h | h
  · rwa [Stops, h]
  · exact h.mono hp

theorem ends_of_word? (h : word? t = some (v, rest)) : Ends v rest := by
  rintro y rfl
  unfold word? at h
  split at h
  · cases h
  · split at h
    · cases h
    · obtain ⟨last, -, heq⟩ := Option.map_eq_some_iff.1 h
      cases heq

theorem ends_of_value (h : value t = .ok (v, rest)) : Ends v rest := by
  rw [value_eq_valueWith] at h
  unfold valueWith at h
  split at h
  · obtain ⟨⟨ms, last⟩, -, heq⟩ := map_eq_ok_iff.1 h
    obtain ⟨rfl, -⟩ := Prod.mk.inj heq
    exact fun _ hv => nomatch hv
  · obtain ⟨⟨vs, last⟩, -, heq⟩ := map_eq_ok_iff.1 h
    obtain ⟨rfl, -⟩ := Prod.mk.inj heq
    exact fun _ hv => nomatch hv
  · obtain ⟨⟨s, last⟩, -, heq⟩ := map_eq_ok_iff.1 h
    obtain ⟨rfl, -⟩ := Prod.mk.inj heq
    exact fun _ hv => nomatch hv
  · split at h
    · next hword =>
      obtain ⟨rfl, rfl⟩ := Prod.mk.inj (Except.ok.inj h)
      exact ends_of_word? hword
    · obtain ⟨⟨x, last⟩, hread, heq⟩ := map_eq_ok_iff.1 h
      obtain ⟨-, rfl⟩ := Prod.mk.inj heq
      obtain ⟨run, n, -, -, -, -, hstops⟩ := Numeral.read_eq_ok_iff.1 hread
      exact fun _ _ => hstops

theorem resumes_value : Resumes isGlue value := by
  intro t v rest h
  obtain ⟨u, hu, rfl⟩ := readsValues_value t v rest h
  have hends := ends_of_value h
  refine ⟨u, ?_, rfl, ?_⟩
  · obtain ⟨c, w, rfl, -⟩ := opens_value (.inl rfl) u v hu
    exact List.cons_ne_nil c w
  · intro x hx
    have hmore : Ends v x := fun y hy =>
      stops_of_follows hx (fun _ => isGlue_of_isNumeralChar) (hends y hy)
    exact value_append hu hmore

theorem value_independent_of_rest (h : value t = .ok (v, rest)) :
    ∃ u, t = u ++ rest ∧ (∀ s, value (u ++ s) = .ok (v, s) ↔ Ends v s) ∧
      ∀ s, s.head? = rest.head? → value (u ++ s) = .ok (v, s) := by
  obtain ⟨u, hu, rfl⟩ := readsValues_value t v rest h
  refine ⟨u, rfl, fun s => ⟨ends_of_value, value_append hu⟩, ?_⟩
  intro s hs
  refine value_append hu fun x hx => ?_
  have hstops := ends_of_value h x hx
  rwa [Stops, hs]

theorem value_independent_of_letter :
    value ['-', '0', 'x', '1'] = .ok (number ⟨true, 0, by decide⟩, ['x', '1']) ∧
      ∃ u, ['-', '0', 'x', '1'] = u ++ ['x', '1'] ∧
        (∀ s, value (u ++ s) = .ok (number ⟨true, 0, by decide⟩, s) ↔
          Ends (number ⟨true, 0, by decide⟩) s) ∧
        ∀ s, s.head? = List.head? ['x', '1'] →
          value (u ++ s) = .ok (number ⟨true, 0, by decide⟩, s) := by
  have h : value ['-', '0', 'x', '1'] = .ok (number ⟨true, 0, by decide⟩, ['x', '1']) := rfl
  exact ⟨h, value_independent_of_rest h⟩

theorem skipBlank_blank_append (hb : Blank b) (hx : Stops isBlank x) : skipBlank (b ++ x) = x :=
  hb.dropWhile_append hx

theorem skipMark_fail {mark : Char} (hb : Blank b) (hx : Stops isBlank x)
    (hmark : x.head? ≠ some mark) : skipMark mark missing (b ++ x) = fail missing x := by
  rw [skipMark, skipBlank_blank_append hb hx]
  cases x with
  | nil => rfl
  | cons c x => exact if_neg fun hc => hmark (congrArg some hc)

theorem afterComma_noComma (hb : Blank b) (hx : Stops isBlank x) (hcomma : x.head? ≠ some ',') :
    afterComma item (b ++ x) = .ok (none, x) := by
  rw [afterComma, skipBlank_blank_append hb hx]
  split
  · exact absurd rfl hcomma
  · rfl

theorem exists_skipBlank (t : Text) :
    ∃ b x, t = b ++ x ∧ Blank b ∧ Stops isBlank x ∧ skipBlank t = x := by
  obtain ⟨b, ht, hb, hx⟩ := Blank.exists_append t
  exact ⟨b, _, ht, hb, hx, rfl⟩

theorem element_append (hb : Blank b) (hx : Stops isBlank x) :
    element inner (b ++ x) = inner x :=
  congrArg inner (skipBlank_blank_append hb hx)

theorem resumes_element : Resumes isGlue (element value) := by
  intro t v rest h
  obtain ⟨b, x, rfl, hb, hx, -⟩ := exists_skipBlank t
  rw [element_append hb hx] at h
  obtain ⟨u, hu, rfl, hresume⟩ := resumes_value x v rest h
  refine ⟨b ++ u, by simp [hu], by rw [List.append_assoc], ?_⟩
  intro y hy
  cases u with
  | nil => exact absurd rfl hu
  | cons c u =>
    have hc : Stops isBlank (c :: (u ++ y)) := stops_cons.2 hx.head
    rw [List.append_assoc, List.cons_append, element_append hb hc]
    exact hresume y hy

def colonValue (t : Text) : Reading (Json × Text) :=
  skipMark ':' .colon t >>= element value

theorem colonValue_append (hb : Blank b) : colonValue (b ++ ':' :: t) = element value t := by
  rw [colonValue, skipMark_append hb (by decide)]
  rfl

theorem resumes_colonValue : Resumes isGlue colonValue := by
  intro t v rest h
  obtain ⟨t₁, hcolon, helement⟩ := bind_eq_ok_iff.1 h
  obtain ⟨b, hb, rfl⟩ := blank_of_skipMark hcolon
  obtain ⟨u, -, rfl, hresume⟩ := resumes_element t₁ v rest helement
  refine ⟨b ++ ':' :: u, by simp, by simp, ?_⟩
  intro x hx
  rw [List.append_assoc, List.cons_append, colonValue_append hb]
  exact hresume x hx

theorem member_append {w s : Text} (hb : Blank b) (hw : Spellings w s) :
    member value (b ++ '"' :: (w ++ '"' :: t)) = (colonValue t).map fun r => ((s, r.1), r.2) := by
  have hskip := skipBlank_blank_append hb
    (stops_cons.2 rfl : Stops isBlank ('"' :: (w ++ '"' :: t)))
  rw [member, hskip, colonValue]
  simp only [bind, Except.bind, Quoted.body_append hw]
  cases skipMark ':' .colon t with
  | error fault => rfl
  | ok r =>
    simp only [element]
    cases value (skipBlank r) <;> rfl

theorem exists_of_member {m : Text × Json} (h : member value t = .ok (m, rest)) :
    ∃ b w t₁, Blank b ∧ Spellings w m.1 ∧ t = b ++ '"' :: (w ++ '"' :: t₁) ∧
      colonValue t₁ = .ok (m.2, rest) := by
  obtain ⟨b, x, rfl, hb, -, hskip⟩ := exists_skipBlank t
  have hmember := h
  rw [member, hskip] at hmember
  split at hmember
  · obtain ⟨⟨name, t₁⟩, hname, -⟩ := bind_eq_ok_iff.1 hmember
    obtain ⟨w, hw, rfl⟩ := Quoted.spellings_of_body hname
    rw [member_append hb hw] at h
    obtain ⟨⟨v, last⟩, hvalue, heq⟩ := map_eq_ok_iff.1 h
    obtain ⟨rfl, rfl⟩ := Prod.mk.inj heq
    exact ⟨b, w, t₁, hb, hw, rfl, hvalue⟩
  · cases hmember

theorem resumes_member : Resumes isGlue (member value) := by
  intro t m rest h
  obtain ⟨b, w, t₁, hb, hw, rfl, hvalue⟩ := exists_of_member h
  obtain ⟨u, -, rfl, hresume⟩ := resumes_colonValue t₁ m.2 rest hvalue
  refine ⟨b ++ '"' :: (w ++ '"' :: u), by simp, by simp, ?_⟩
  intro x hx
  have hsplit : b ++ '"' :: (w ++ '"' :: u) ++ x = b ++ '"' :: (w ++ '"' :: (u ++ x)) := by simp
  rw [hsplit, member_append hb hw, hresume x hx]
  rfl

def tail (close : Char) (missing : Requirement) (item : Text → Reading (α × Text)) (t : Text) :
    Reading (List α × Text) := do
  let (more, t) ← repeated (afterComma item) t
  let t ← skipMark close missing t
  .ok (more, t)

def items (close : Char) (missing : Requirement) (item : Text → Reading (α × Text)) (t : Text) :
    Reading (List α × Text) :=
  item t >>= fun r => (tail close missing item r.2).map fun q => (r.1 :: q.1, q.2)

theorem consumes_of_resumes (h : Resumes isGlue item) : Consumes (afterComma item) := by
  refine consumes_afterComma ?_
  intro t a rest hitem
  obtain ⟨u, -, rfl, -⟩ := h t a rest hitem
  rw [List.length_append]
  omega

theorem tail_comma (h : Resumes isGlue item) (hb : Blank b) :
    tail close missing item (b ++ ',' :: t) = items close missing item t := by
  have hcomma : afterComma item (b ++ ',' :: t) = _ := afterComma_append hb
  rw [tail, items]
  cases hitem : item t with
  | error fault =>
    rw [hitem] at hcomma
    rw [repeated_of_error hcomma]
    rfl
  | ok r =>
    obtain ⟨a, rest⟩ := r
    rw [hitem] at hcomma
    rw [repeated_of_some (consumes_of_resumes h) hcomma]
    simp only [bind, Except.bind, tail]
    cases repeated (afterComma item) rest with
    | error fault => rfl
    | ok q =>
      simp only [Except.map]
      cases skipMark close missing q.2 <;> rfl

theorem tail_close (hclose : IsClose close) (hb : Blank b) :
    tail close missing item (b ++ close :: t) = .ok ([], t) := by
  have hnone : afterComma item (b ++ close :: t) = .ok (none, close :: t) :=
    afterComma_stops hb hclose.notBlank hclose.ne_comma
  rw [tail, repeated_of_none hnone]
  simp only [bind, Except.bind, skipMark_append hb hclose.notBlank]

theorem tail_fail (hb : Blank b) (hx : Stops isBlank x) (hcomma : x.head? ≠ some ',')
    (hclose : x.head? ≠ some close) : tail close missing item (b ++ x) = fail missing x := by
  rw [tail, repeated_of_none (afterComma_noComma hb hx hcomma)]
  simp only [bind, Except.bind, skipMark_fail hb hx hclose]
  rfl

theorem sequence_eq_items (hb : Blank b) (hx : Stops isBlank x) (hclose : x.head? ≠ some close)
    (hitem : item (b ++ x) = item x) :
    sequence close missing item (b ++ x) = items close missing item x := by
  rw [sequence, skipMark_fail hb hx hclose, hitem]
  simp only [items, tail, bind, Except.bind]
  cases item x with
  | error fault => rfl
  | ok r =>
    simp only
    cases repeated (afterComma item) r.2 with
    | error fault => rfl
    | ok q =>
      simp only [Except.map]
      cases skipMark close missing q.2 <;> rfl

end TextScan.Json
