import TextScan.Proofs.Repetition
import TextScan.Proofs.Xml.Document
/-!
Levels of the reader of elements on a bare text. An element inside a text is read from a shorter
one, so any level that is not below the length of the text comes to the same, and the elements
inside an element are read as it is. Behind the first character of a tag the reader is `body`, and
behind the start tag of `n` it is `elementRest n`, which takes one item after the other.
-/

namespace TextScan.Xml

open Cursor CharClass Text Run Grammar Repetition

variable {inner inner' : Text → Run (Element × Text)} {t : Text} {n : Nat}

def Shortens (n : Nat) (inner : Text → Run (Element × Text)) : Prop :=
  ∀ (t : Text) e rest, t.length < n → outcome (inner t) = .ok (e, rest) → rest.length < t.length

def SameBelow (n : Nat) (inner inner' : Text → Run (Element × Text)) : Prop :=
  ∀ t : Text, t.length < n → outcome (inner t) = outcome (inner' t)

theorem ReadsBelow.shortens (h : ReadsBelow n inner) : Shortens n inner :=
  fun t e rest ht hread => ((h t e rest ht).1 hread).length_lt

theorem collect_congr (hsame : SameBelow n inner inner') (hshort : Shortens n inner) (limit : Nat)
    (ht : t.length < n) :
    outcome (collect (item inner) limit t) = outcome (collect (item inner') limit t) := by
  induction limit generalizing t with
  | zero => rfl
  | succ limit ih =>
    rw [collect_item, collect_item]
    split
    · rfl
    · split
      · have hread' := hsame t ht
        cases hread : outcome (inner t) with
        | error fault =>
          rw [hread] at hread'
          rw [outcome_bind_of_error hread, outcome_bind_of_error hread'.symm]
        | ok r =>
          have hlt := hshort t r.1 r.2 ht hread
          rw [hread] at hread'
          rw [outcome_bind_of_ok hread, outcome_bind_of_ok hread'.symm, outcome_bind, outcome_bind,
            ih (Nat.lt_trans hlt ht)]
      · have hle : (t.dropWhile (· != '<')).length ≤ t.length :=
          (List.dropWhile_sublist _).length_le
        rw [outcome_bind, outcome_bind]
        congr 1
        exact ih (Nat.lt_of_le_of_lt hle ht)

theorem elementWith_congr (hsame : SameBelow t.length inner inner')
    (hshort : Shortens t.length inner) :
    outcome (elementWith inner t) = outcome (elementWith inner' t) := by
  rw [elementWith, elementWith]
  cases htag : outcome (startTag t) with
  | error fault => rw [outcome_bind_of_error htag, outcome_bind_of_error htag]
  | ok r =>
    rw [outcome_bind_of_ok htag, outcome_bind_of_ok htag]
    obtain ⟨⟨m, closed⟩, rest⟩ := r
    cases closed with
    | true => simp only [if_true]
    | false =>
      obtain ⟨-, u, hu, rfl⟩ := startTag_eq_ok_iff.1 htag
      have hitems : outcome (repeated (item inner) rest) = outcome (repeated (item inner') rest) :=
        collect_congr hsame hshort _ (length_lt_of_startTag hu rest)
      simp only [Bool.false_eq_true, if_false, outcome_bind, hitems]

theorem elementUpTo_eq (ht : t.length ≤ n) :
    outcome (elementUpTo n t) = outcome (elementWith element t) := by
  induction n using Nat.strongRecOn generalizing t with
  | ind n ih =>
    cases n with
    | zero =>
      obtain rfl := List.length_eq_zero_iff.1 (Nat.le_zero.1 ht)
      exact elementWith_congr (fun _ hu => absurd hu (Nat.not_lt_zero _))
        fun _ _ _ hu => absurd hu (Nat.not_lt_zero _)
    | succ n =>
      refine elementWith_congr ?_ ?_
      · intro u hu
        rw [element, ih n (Nat.lt_succ_self n) (by omega)]
        exact (ih u.length (by omega) (Nat.le_refl _)).symm
      · intro u e rest hu
        exact (readsBelow_elementUpTo n).shortens u e rest (by omega)

theorem element_eq_elementWith (t : Text) :
    outcome (element t) = outcome (elementWith element t) :=
  elementUpTo_eq (Nat.le_refl _)

section Parts

variable {s u rest n : Text} {e : Element}

def tag (t : Text) : Except Fault ((Text × Bool) × Text) :=
  outcome (name t) >>= fun r => outcome (tagEnd r.1 (skipLiteral ['/', '>'] r.2))

def nameEnd (n t : Text) : Except Fault (Text × Text) := do
  let (found, t) ← outcome (name t)
  let t ← outcome (require (found == n) (.endTag n) t)
  let t ← outcome (requireChar '>' t)
  .ok (found, skipBlank t)

def itemOf (t : Text) : Except Fault (Option (Item Element) × Text) :=
  outcome (item element t)

def elementRest (n t : Text) : Except Fault (List (Item Element) × Text) :=
  repeated itemOf t >>= fun r => (outcome (endTag n r.2)).map fun rest => (r.1, rest)

def body (t : Text) : Except Fault (Element × Text) :=
  tag t >>= fun r =>
    if r.1.2 then .ok (.empty r.1.1, r.2)
    else (elementRest r.1.1 r.2).map fun q => (.full r.1.1 q.1, q.2)

theorem startTag_mark (t : Text) : outcome (startTag ('<' :: t)) = tag t := by
  have hmark : outcome (requireChar '<' ('<' :: t)) = .ok t := requireChar_eq_ok_iff.2 rfl
  rw [startTag_eq, outcome_bind_of_ok hmark, outcome_bind]
  rfl

theorem element_of_noMark (h : t.head? ≠ some '<') :
    outcome (element t) = .error (Fault.before t (expectedChar '<')) := by
  rw [element_eq_elementWith, elementWith, startTag_eq]
  exact outcome_bind_of_error (outcome_bind_of_error (requireChar_of_head?_ne h) _) _

theorem element_mark (t : Text) : outcome (element ('<' :: t)) = body t := by
  have hitems (rest : Text) : outcome (repeated (item element) rest) = repeated itemOf rest :=
    outcome_collect _ _ _
  rw [element_eq_elementWith, elementWith, outcome_bind, startTag_mark, body]
  refine congrArg (tag t >>= ·) (funext fun r => ?_)
  obtain ⟨⟨n, closed⟩, rest⟩ := r
  cases closed with
  | true => rfl
  | false =>
    simp only [Bool.false_eq_true, if_false, outcome_bind, hitems, elementRest]
    cases repeated itemOf rest with
    | error fault => rfl
    | ok q => cases hend : outcome (endTag n q.2) <;> simp only [bind, Except.bind, hend] <;> rfl

theorem endTag_mark (n t : Text) :
    outcome (endTag n ('<' :: '/' :: t)) = (nameEnd n t).map Prod.snd := by
  have hmark : skipLiteral ['<', '/'] ('<' :: '/' :: t) = (true, t) :=
    skipLiteral_append ['<', '/'] t
  have hopened : outcome (require true (.endTag n) t) = .ok t := rfl
  rw [endTag, hmark, nameEnd]
  simp only [outcome_bind, hopened]
  cases hname : outcome (name t) with
  | error fault => simp only [bind, Except.bind, hname, Except.map]
  | ok r =>
    cases hfound : outcome (require (r.1 == n) (.endTag n) r.2) with
    | error fault => simp only [bind, Except.bind, hname, hfound, Except.map]
    | ok t₁ =>
      simp only [bind, Except.bind, hname, hfound]
      cases outcome (requireChar '>' t₁) <;> rfl

theorem item_of_ends (h : EndsContent t) : itemOf t = .ok (none, t) := by
  rw [itemOf, item, if_pos (endsContent_iff.2 h)]
  rfl

theorem not_endsContent_cons (h : t.head? ≠ some '/') : ¬ EndsContent ('<' :: t) := by
  rintro (hnil | ⟨u, hu⟩)
  · cases hnil
  · obtain ⟨-, rfl⟩ := List.cons.inj hu
    exact h rfl

theorem start_cases (t : Text) :
    EndsContent t ∨ (∃ u, t = '<' :: u ∧ u.head? ≠ some '/') ∨ (t ≠ [] ∧ Stops (· == '<') t) := by
  cases t with
  | nil => exact .inl (.inl rfl)
  | cons c t =>
    by_cases hc : c = '<'
    · subst hc
      by_cases hslash : t.head? = some '/'
      · obtain ⟨u, rfl⟩ := List.head?_eq_some_iff.1 hslash
        exact .inl (.inr ⟨u, rfl⟩)
      · exact .inr (.inl ⟨t, rfl, hslash⟩)
    · exact .inr (.inr ⟨List.cons_ne_nil c t, stops_cons.2 (beq_eq_false_iff_ne.2 hc)⟩)

theorem item_mark (h : t.head? ≠ some '/') :
    itemOf ('<' :: t) = (body t).map fun r => (some (.element r.1), r.2) := by
  have hguard := mt endsContent_iff.1 (not_endsContent_cons h)
  have hnext : nextIs (· == '<') ('<' :: t) = true := rfl
  rw [itemOf, item, if_neg hguard, if_pos hnext, outcome_bind, element_mark]
  cases body t <;> rfl

theorem item_of_stops (hne : t ≠ []) (hnext : Stops (· == '<') t) :
    itemOf t = .ok (some (.text (t.takeWhile (· != '<'))), t.dropWhile (· != '<')) := by
  have hguard : ¬ EndsContent t := by
    rintro (hnil | ⟨u, rfl⟩)
    · exact hne hnil
    · cases hnext.head
  have hchars : ¬ nextIs (· == '<') t = true := Bool.eq_false_iff.1 hnext
  rw [itemOf, item, if_neg (mt endsContent_iff.1 hguard), if_neg hchars]
  rfl

theorem item_chars (hs : Chars s) (ht : Stops (· != '<') t) :
    itemOf (s ++ t) = .ok (some (.text s), t) := by
  have hall := forall_ne_of_chars hs
  have hne : s ++ t ≠ [] := fun hnil => hs.ne_nil (List.append_eq_nil_iff.1 hnil).1
  have hnext : Stops (· == '<') (s ++ t) := by
    obtain ⟨c, w, rfl, hc, -⟩ := exists_cons_of_chars hs
    exact stops_cons.2 (beq_eq_false_iff_ne.2 hc)
  rw [item_of_stops hne hnext, takeWhile_append_stops hall ht, dropWhile_append_stops hall ht]

theorem bodyAhead (h : body t = .ok (e, rest)) : ElemAhead ('<' :: t) e rest :=
  element_eq_ok_iff.1 ((element_mark t).trans h)

theorem body_append (h : Elem ('<' :: s) e) (ht : Stops isBlank t) :
    body (s ++ t) = .ok (e, t) := by
  rw [← element_mark]
  exact element_eq_ok_iff.2 ⟨ht, '<' :: s, h, rfl⟩

theorem consumes_itemOf : Consumes itemOf := by
  intro t a rest h
  change rest.length < t.length
  rcases start_cases t with hends | ⟨t, rfl, hslash⟩ | ⟨hne, hnext⟩
  · rw [item_of_ends hends] at h
    cases h
  · rw [item_mark hslash] at h
    obtain ⟨⟨e, last⟩, he, heq⟩ := map_eq_ok_iff.1 h
    obtain ⟨-, rfl⟩ := Prod.mk.inj heq
    exact (bodyAhead he).length_lt
  · rw [item_of_stops hne hnext] at h
    obtain ⟨-, rfl⟩ := Prod.mk.inj (Except.ok.inj h)
    exact length_dropWhile_lt hne hnext

theorem elementRest_of_ends (h : EndsContent t) :
    elementRest n t = (outcome (endTag n t)).map fun rest => ([], rest) := by
  rw [elementRest, repeated_of_none (item_of_ends h)]
  rfl

theorem elementRest_of_item {a : Item Element} (h : itemOf t = .ok (some a, rest)) :
    elementRest n t = (elementRest n rest).map fun q => (a :: q.1, q.2) := by
  rw [elementRest, elementRest, repeated_of_some consumes_itemOf h]
  cases repeated itemOf rest with
  | error fault => rfl
  | ok q =>
    simp only [bind, Except.bind, Except.map]
    cases outcome (endTag n q.2) <;> rfl

theorem elementRest_nil (n : Text) :
    elementRest n [] = .error (Fault.before [] (Requirement.endTag n).text) := by
  rw [elementRest_of_ends (.inl rfl), endTag_nil]
  rfl

theorem elementRest_endMark (n t : Text) :
    elementRest n ('<' :: '/' :: t) = (nameEnd n t).map fun r => ([], r.2) := by
  rw [elementRest_of_ends (.inr ⟨t, rfl⟩), endTag_mark]
  cases nameEnd n t <;> rfl

theorem elementRest_mark (h : t.head? ≠ some '/') :
    elementRest n ('<' :: t) =
      body t >>= fun r => (elementRest n r.2).map fun q => (.element r.1 :: q.1, q.2) := by
  have hitem := item_mark h
  cases hbody : body t with
  | error fault =>
    rw [hbody] at hitem
    rw [elementRest, repeated_of_error hitem]
    rfl
  | ok r =>
    rw [hbody] at hitem
    exact elementRest_of_item hitem

theorem elementRest_of_element (he : Elem u e) (ht : Stops isBlank t) :
    elementRest n (u ++ t) = (elementRest n t).map fun q => (.element e :: q.1, q.2) := by
  obtain ⟨c, w, rfl, hc⟩ := exists_cons_of_elem he
  have hslash : (c :: w ++ t).head? ≠ some '/' := by simpa using hc
  refine elementRest_of_item ((item_mark hslash).trans ?_)
  rw [body_append he ht]
  rfl

theorem elementRest_chars (hs : Chars s) (ht : Stops (· != '<') t) :
    elementRest n (s ++ t) = (elementRest n t).map fun q => (.text s :: q.1, q.2) :=
  elementRest_of_item (item_chars hs ht)

theorem elementRest_content {items : List (Item Element)} (hu : Content Elem u items)
    (ht : Stops (· != '<') t) :
    elementRest n (u ++ t) = (elementRest n t).map fun q => (items ++ q.1, q.2) := by
  induction hu with
  | nil =>
    rw [List.nil_append]
    cases elementRest n t <;> rfl
  | element he hw ih =>
    rw [List.append_assoc, elementRest_of_element he (stops_content hw ht), ih]
    cases elementRest n t <;> rfl
  | text hs hahead hw ih =>
    rw [List.append_assoc, elementRest_chars hs (stops_content_of_noTextAhead hw hahead ht), ih]
    cases elementRest n t <;> rfl

end Parts

end TextScan.Xml
