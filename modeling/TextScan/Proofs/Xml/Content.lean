import TextScan.Proofs.Xml.Grammar

namespace TextScan.Xml

open CharClass Text Grammar

variable {t u rest s n : Text} {e : Element} {items : List (Item Element)}

theorem name_of_spaced (h : Spaced s n) : Name n := by
  cases h with
  | around hb hn hb' => exact hn

theorem name_of_startTag {closed : Bool} (h : StartTag t n closed) : Name n := by
  cases h with
  | parts hs hb => exact name_of_spaced hs

theorem exists_cons_of_spaced (h : Spaced s n) : ∃ c w, s = c :: w ∧ c ≠ '/' := by
  cases h with
  | @around b n b' hb hn hb' =>
    cases b with
    | cons c b =>
      refine ⟨c, _, rfl, ?_⟩
      rintro rfl
      exact absurd (hb '/' (by simp)) (by decide)
    | nil =>
      cases hn with
      | @letter c cs hc hcs =>
        refine ⟨c, _, rfl, ?_⟩
        rintro rfl
        exact absurd hc (by decide)

theorem exists_cons_of_startTag {closed : Bool} (h : StartTag t n closed) :
    ∃ c w, t = '<' :: c :: w ∧ c ≠ '/' := by
  cases h with
  | parts hs hb =>
    obtain ⟨c, w, rfl, hc⟩ := exists_cons_of_spaced hs
    exact ⟨c, _, rfl, hc⟩

theorem exists_cons_of_elem (h : Elem u e) : ∃ c w, u = '<' :: c :: w ∧ c ≠ '/' := by
  cases h with
  | empty htag => exact exists_cons_of_startTag htag
  | full htag hitems hend =>
    obtain ⟨c, w, rfl, hc⟩ := exists_cons_of_startTag htag
    exact ⟨c, _, rfl, hc⟩

theorem exists_cons_of_chars (h : Chars s) : ∃ c w, s = c :: w ∧ c ≠ '<' ∧ isBlank c = false := by
  cases hs : s with
  | nil => exact absurd hs h.ne_nil
  | cons c w =>
    subst hs
    refine ⟨c, w, rfl, ?_, h.stops.head⟩
    rintro rfl
    exact h.noTag (by simp)

theorem length_lt_of_startTag {closed : Bool} (h : StartTag t n closed) (rest : Text) :
    rest.length < (t ++ rest).length := by
  obtain ⟨c, w, rfl, -⟩ := exists_cons_of_startTag h
  simp only [List.cons_append, List.length_cons, List.length_append]
  omega

theorem length_lt_of_elem (h : Elem u e) (rest : Text) : rest.length < (u ++ rest).length := by
  obtain ⟨c, w, rfl, -⟩ := exists_cons_of_elem h
  simp only [List.cons_append, List.length_cons, List.length_append]
  omega

def EndsContent (t : Text) : Prop :=
  t = [] ∨ ∃ u, t = '<' :: '/' :: u

theorem stops_isBlank_of_stops (h : Stops (· != '<') t) : Stops isBlank t := by
  refine h.mono ?_
  intro c hc
  rw [bne_iff_ne]
  rintro rfl
  exact absurd hc (by decide)

theorem EndsContent.stops (h : EndsContent t) : Stops (· != '<') t := by
  rcases h with rfl | ⟨u, rfl⟩
  · exact stops_nil
  · exact stops_cons.2 rfl

theorem stops_content (h : Content Elem u items) (hrest : Stops (· != '<') rest) :
    Stops isBlank (u ++ rest) := by
  cases h with
  | nil => exact stops_isBlank_of_stops hrest
  | element he hitems =>
    obtain ⟨c, w, rfl, -⟩ := exists_cons_of_elem he
    exact stops_cons.2 rfl
  | text hs hahead hitems =>
    obtain ⟨c, w, rfl, -, hc⟩ := exists_cons_of_chars hs
    exact stops_cons.2 hc

-- Text that comes next would have been part of the text before it.
theorem stops_content_of_noTextAhead (h : Content Elem u items) (hahead : NoTextAhead items)
    (hrest : Stops (· != '<') rest) : Stops (· != '<') (u ++ rest) := by
  cases h with
  | nil => exact hrest
  | element he hitems =>
    obtain ⟨c, w, rfl, -⟩ := exists_cons_of_elem he
    exact stops_cons.2 rfl
  | text hs _ hitems => exact absurd rfl (hahead _ _)

theorem noTextAhead_of_stops (h : Content Elem u items) (hstops : Stops (· != '<') (u ++ rest)) :
    NoTextAhead items := by
  rintro s more rfl
  cases h with
  | text hs hahead hitems =>
    obtain ⟨c, w, rfl, hc, -⟩ := exists_cons_of_chars hs
    have := hstops.head
    simp [hc] at this

theorem eq_nil_of_endsContent (h : Content Elem u items) (hend : EndsContent (u ++ rest)) :
    u = [] ∧ items = [] := by
  cases h with
  | nil => exact ⟨rfl, rfl⟩
  | element he hitems =>
    obtain ⟨c, w, rfl, hc⟩ := exists_cons_of_elem he
    rcases hend with hnil | ⟨v, hv⟩
    · cases hnil
    · injection hv with _ hv
      injection hv with hv
      exact absurd hv hc
  | text hs hahead hitems =>
    obtain ⟨c, w, rfl, hc, -⟩ := exists_cons_of_chars hs
    rcases hend with hnil | ⟨v, hv⟩
    · cases hnil
    · injection hv with hv
      exact absurd hv hc

theorem forall_ne_of_chars (h : Chars s) : ∀ c ∈ s, (c != '<') = true := by
  intro c hc
  rw [bne_iff_ne]
  rintro rfl
  exact h.noTag hc

theorem chars_takeWhile (hne : t ≠ []) (hnext : Stops (· == '<') t) (ht : Stops isBlank t) :
    Chars (t.takeWhile (· != '<')) := by
  cases t with
  | nil => exact absurd rfl hne
  | cons c t =>
    have hc : (c != '<') = true := by simpa using hnext.head
    rw [List.takeWhile_cons, if_pos hc]
    refine ⟨List.cons_ne_nil _ _, ?_, stops_cons.2 ht.head⟩
    intro hmem
    rcases List.mem_cons.1 hmem with rfl | hmem
    · simp at hc
    · have htag := List.all_eq_true.1 List.all_takeWhile _ hmem
      simp at htag

def ElemAhead (t : Text) (e : Element) (rest : Text) : Prop :=
  Stops isBlank rest ∧ ∃ u, Elem u e ∧ t = u ++ rest

def ContentAhead (t : Text) (items : List (Item Element)) (rest : Text) : Prop :=
  EndsContent rest ∧ ∃ u, Content Elem u items ∧ t = u ++ rest

theorem ElemAhead.length_lt (h : ElemAhead t e rest) : rest.length < t.length := by
  obtain ⟨-, u, hu, rfl⟩ := h
  exact length_lt_of_elem hu rest

theorem contentAhead_of_ends (h : EndsContent t) :
    ContentAhead t items rest ↔ items = [] ∧ t = rest := by
  constructor
  · rintro ⟨-, u, hu, rfl⟩
    obtain ⟨rfl, rfl⟩ := eq_nil_of_endsContent hu h
    exact ⟨rfl, rfl⟩
  · rintro ⟨rfl, rfl⟩
    exact ⟨h, [], .nil, rfl⟩

theorem contentAhead_of_tag (hmore : ¬ EndsContent t) (hnext : t.head?.any (· == '<') = true) :
    ContentAhead t items rest ↔
      ∃ e t' more, ElemAhead t e t' ∧ ContentAhead t' more rest ∧ items = .element e :: more := by
  constructor
  · rintro ⟨hend, u, hu, rfl⟩
    cases hu with
    | nil => exact absurd hend hmore
    | @element v w e more hv hw =>
      refine ⟨e, w ++ rest, more, ⟨stops_content hw hend.stops, v, hv, ?_⟩, ⟨hend, w, hw, rfl⟩, rfl⟩
      exact List.append_assoc _ _ _
    | text hs hahead hw =>
      obtain ⟨c, cs, rfl, hc, -⟩ := exists_cons_of_chars hs
      exact absurd (by simpa using hnext) hc
  · rintro ⟨e, t', more, ⟨-, v, hv, rfl⟩, ⟨hend, w, hw, rfl⟩, rfl⟩
    exact ⟨hend, v ++ w, .element hv hw, (List.append_assoc _ _ _).symm⟩

theorem contentAhead_of_chars (hmore : ¬ EndsContent t) (hnext : Stops (· == '<') t)
    (ht : Stops isBlank t) :
    ContentAhead t items rest ↔
      ∃ more, ContentAhead (t.dropWhile (· != '<')) more rest ∧
        items = .text (t.takeWhile (· != '<')) :: more := by
  constructor
  · rintro ⟨hend, u, hu, rfl⟩
    cases hu with
    | nil => exact absurd hend hmore
    | element hv hw =>
      obtain ⟨c, cs, rfl, -⟩ := exists_cons_of_elem hv
      exact absurd hnext.head (by simp)
    | @text v w more hs hahead hw =>
      have hstops := stops_content_of_noTextAhead hw hahead hend.stops
      rw [List.append_assoc, takeWhile_append_stops (forall_ne_of_chars hs) hstops,
        dropWhile_append_stops (forall_ne_of_chars hs) hstops]
      exact ⟨more, ⟨hend, w, hw, rfl⟩, rfl⟩
  · rintro ⟨more, ⟨hend, w, hw, hrest⟩, rfl⟩
    have hs := chars_takeWhile (fun hnil => hmore (.inl hnil)) hnext ht
    have hstops : Stops (· != '<') (t.dropWhile (· != '<')) := stops_dropWhile
    rw [hrest] at hstops
    refine ⟨hend, _, .text hs (noTextAhead_of_stops hw hstops) hw, ?_⟩
    rw [List.append_assoc, ← hrest]
    exact List.takeWhile_append_dropWhile.symm

end TextScan.Xml
