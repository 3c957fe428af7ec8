import TextScan.Proofs.Xml.TagFaults

namespace TextScan.Xml

open CharClass Text Run Grammar

variable {t u x rest s n m : Text} {e : Element} {fault : Fault}

section Contents

def endTagOf (n : Text) : Text :=
  '<' :: '/' :: (n ++ ['>'])

theorem stops_endTagOf (n : Text) : Stops (· != '<') (endTagOf n) :=
  stops_cons.2 rfl

theorem elementRest_endTagOf (hn : Name n) : elementRest n (endTagOf n) = .ok ([], []) := by
  obtain ⟨m, hread⟩ := readsWhole_nameEnd hn Blank.nil
  rw [List.nil_append] at hread
  rw [endTagOf, elementRest_endMark, hread]
  rfl

def BodiesBreakOff (k : Nat) : Prop :=
  ∀ x fault, x.length < k → body x = .error fault →
    BreaksOff noGlue (FaultSite (fun q m => Innermost ('<' :: q) m) fault) body x

theorem BodiesBreakOff.mono {k l : Nat} (h : BodiesBreakOff k) (hl : l ≤ k) : BodiesBreakOff l :=
  fun x fault hx => h x fault (Nat.lt_of_lt_of_le hx hl)

theorem breaksOff_elementRest_nil (hn : Name n) (h : elementRest n [] = .error fault) :
    BreaksOff (· != '<') (FaultSite (Inside n) fault) (elementRest n) [] := by
  rw [elementRest_nil] at h
  obtain rfl := Except.error.inj h
  refine .of_error (u := []) ?_
    ⟨endTagOf n, fun _ => stops_endTagOf n, [], elementRest_endTagOf hn⟩ ?_
  · refine .reached rfl (.inl rfl) fun m hm => ?_
    obtain rfl := eq_of_endTag_text_eq hm
    exact .here .nil
  · intro c more z hc
    cases hc

theorem breaksOff_elementRest_endMark (hn : Name n)
    (h : elementRest n ('<' :: '/' :: t) = .error fault) :
    BreaksOff (· != '<') (FaultSite (Inside n) fault) (elementRest n) ('<' :: '/' :: t) := by
  rw [elementRest_endMark] at h
  refine (breaksOff_nameEnd hn (Inside.here .nil) (error_of_map h)).behind (u := ['<', '/'])
    ?_ ?_ ?_ ?_
  · exact fun hnil => nomatch hnil
  · rintro x - ⟨m, hm⟩
    have hread : elementRest n ('<' :: '/' :: x) = .ok ([], []) := by
      rw [elementRest_endMark, hm]
      rfl
    exact ⟨[], hread⟩
  · rintro x - ⟨a, last, hread⟩
    change elementRest n ('<' :: '/' :: x) = _ at hread
    rw [elementRest_endMark] at hread
    obtain ⟨r, hr, -⟩ := map_eq_ok_iff.1 hread
    exact ⟨r.1, r.2, hr⟩
  · exact fun _ _ _ _ hat => hat

theorem breaksOff_child (hn : Name n) (hslash : t.head? ≠ some '/')
    (h : BreaksOff noGlue (FaultSite (fun q m => Innermost ('<' :: q) m) fault) body t) :
    BreaksOff (· != '<') (FaultSite (Inside n) fault) (elementRest n) ('<' :: t) := by
  have hchild : BreaksOff noGlue (FaultSite (fun q m => Innermost ('<' :: q) m) fault)
      (fun x => elementRest n ('<' :: x)) t := by
    refine h.before ?_ ?_
    · rintro x ⟨e, he⟩
      obtain ⟨-, v, hv, hsplit⟩ := bodyAhead he
      rw [List.append_nil] at hsplit
      subst hsplit
      have hhead : (x ++ endTagOf n).head? ≠ some '/' := by
        obtain ⟨c, w, hcons, hc⟩ := exists_cons_of_elem hv
        obtain ⟨-, rfl⟩ := List.cons.inj hcons
        simpa using hc
      have hread := body_append hv (stops_isBlank_of_stops (stops_endTagOf n))
      refine ⟨endTagOf n, stops_noGlue, [.element e], ?_⟩
      simp only [elementRest_mark hhead, hread, bind, Except.bind, elementRest_endTagOf hn]
      rfl
    · rintro x hx ⟨items, last, hread⟩
      rw [← hx] at hslash
      simp only [elementRest_mark hslash] at hread
      obtain ⟨r, hr, -⟩ := bind_eq_ok_iff.1 hread
      exact ⟨r.1, r.2, hr⟩
  refine hchild.behind (u := ['<']) (fun hnil => nomatch hnil) ?_ ?_ ?_
  · exact fun _ _ hwhole => hwhole
  · exact fun _ _ hreads => hreads
  · exact fun _ _ _ _ hat => hat.append fun q m _ hq => Inside.of_innermost hq

theorem breaksOff_item {a : Item Element}
    (h : BreaksOff (· != '<') (FaultSite (Inside n) fault) (elementRest n) t)
    (hitem : ∀ x, Follows (· != '<') t x →
      elementRest n (u ++ x) = (elementRest n x).map fun q => (a :: q.1, q.2))
    (hinside : ∀ q m, q <+: t → Inside n q m → Inside n (u ++ q) m) :
    BreaksOff (· != '<') (FaultSite (Inside n) fault) (elementRest n) (u ++ t) := by
  refine h.behind (fun _ _ hz => hz) ?_ ?_ ?_
  · rintro x hx ⟨items, hread⟩
    exact ⟨a :: items, by rw [hitem x hx, hread]; rfl⟩
  · rintro x hx ⟨items, last, hread⟩
    rw [hitem x (.inl hx)] at hread
    obtain ⟨r, hr, -⟩ := map_eq_ok_iff.1 hread
    exact ⟨r.1, r.2, hr⟩
  · rintro front part rest rfl hat
    exact hat.append fun q m hq => hinside q m (hq.trans (List.prefix_append _ _))

theorem stops_isBlank_of_follows (hx : Follows (· != '<') t x) (ht : Stops isBlank t) :
    Stops isBlank x := by
  rcases hx with hx | hx
  · rwa [Stops, hx]
  · exact stops_isBlank_of_stops hx

theorem breaksOff_behindElement (he : Elem u e) (ht : Stops isBlank t)
    (h : BreaksOff (· != '<') (FaultSite (Inside n) fault) (elementRest n) t) :
    BreaksOff (· != '<') (FaultSite (Inside n) fault) (elementRest n) (u ++ t) :=
  breaksOff_item h (fun _ hx => elementRest_of_element he (stops_isBlank_of_follows hx ht))
    fun _ _ _ => Inside.element_append he

theorem breaksOff_behindChars (hs : Chars s) (ht : Stops (· != '<') t)
    (h : BreaksOff (· != '<') (FaultSite (Inside n) fault) (elementRest n) t) :
    BreaksOff (· != '<') (FaultSite (Inside n) fault) (elementRest n) (s ++ t) := by
  refine breaksOff_item h (fun x hx => elementRest_chars hs ?_) ?_
  · rcases hx with hx | hx
    · rwa [Stops, hx]
    · exact hx
  · exact fun q m hq => Inside.chars_append hs (stops_left ht hq)

theorem breaksOff_elementRest (hn : Name n) (hbodies : BodiesBreakOff t.length)
    (ht : Stops isBlank t) (h : elementRest n t = .error fault) :
    BreaksOff (· != '<') (FaultSite (Inside n) fault) (elementRest n) t := by
  induction hlength : t.length using Nat.strongRecOn generalizing t with
  | ind k ih =>
    subst hlength
    rcases start_cases t with hends | ⟨t, rfl, hslash⟩ | ⟨hne, hnext⟩
    · rcases hends with rfl | ⟨t, rfl⟩
      · exact breaksOff_elementRest_nil hn h
      · exact breaksOff_elementRest_endMark hn h
    · cases hbody : body t with
      | error fault' =>
        rw [elementRest_mark hslash, hbody] at h
        obtain rfl := Except.error.inj h
        exact breaksOff_child hn hslash (hbodies t fault' (Nat.lt_succ_self _) hbody)
      | ok r =>
        obtain ⟨e, rest⟩ := r
        have hahead := bodyAhead hbody
        have hlt := hahead.length_lt
        obtain ⟨hrest, v, hv, hsplit⟩ := hahead
        rw [hsplit] at h ⊢
        rw [elementRest_of_element hv hrest] at h
        exact breaksOff_behindElement hv hrest
          (ih rest.length hlt (hbodies.mono (Nat.le_of_lt hlt)) hrest (error_of_map h) rfl)
    · have hs := chars_takeWhile hne hnext ht
      have hlt := length_dropWhile_lt hne hnext
      obtain ⟨s, rest, hsplit, -, hrest, htake, hdrop⟩ := exists_split_at_stop (· != '<') t
      rw [htake] at hs
      rw [hdrop] at hlt
      rw [hsplit] at h ⊢
      rw [elementRest_chars hs hrest] at h
      exact breaksOff_behindChars hs hrest
        (ih rest.length hlt (hbodies.mono (Nat.le_of_lt hlt)) (stops_isBlank_of_stops hrest)
          (error_of_map h) rfl)

end Contents

section Bodies

theorem breaksOff_body (h : body t = .error fault) :
    BreaksOff noGlue (FaultSite (fun q m => Innermost ('<' :: q) m) fault) body t := by
  induction hlength : t.length using Nat.strongRecOn generalizing t fault with
  | ind k ih =>
    subst hlength
    cases htag : tag t with
    | error fault' =>
      rw [body, htag] at h
      obtain rfl := Except.error.inj h
      refine (breaksOff_tag htag).before ?_ ?_
      · rintro x ⟨⟨n, closed⟩, hread⟩
        obtain ⟨u, -, rfl, hu, -, hresume⟩ := exists_of_tag hread
        rw [List.append_nil]
        cases closed with
        | true =>
          refine ⟨[], stops_noGlue, .empty n, ?_⟩
          rw [body, hresume [] stops_nil]
          rfl
        | false =>
          refine ⟨endTagOf n, stops_noGlue, .full n [], ?_⟩
          rw [body, hresume _ (stops_isBlank_of_stops (stops_endTagOf n))]
          simp only [bind, Except.bind, Bool.false_eq_true, if_false,
            elementRest_endTagOf (name_of_startTag hu)]
          rfl
      · rintro x - ⟨e, last, hread⟩
        obtain ⟨r, hr, -⟩ := bind_eq_ok_iff.1 hread
        exact ⟨r.1, r.2, hr⟩
    | ok r =>
      obtain ⟨⟨n, closed⟩, rest⟩ := r
      obtain ⟨u, hu, rfl, htagged, hrest, hresume⟩ := exists_of_tag htag
      cases closed with
      | true =>
        rw [body, htag] at h
        cases h
      | false =>
        have hbody : ∀ x, Stops isBlank x →
            body (u ++ x) = (elementRest n x).map fun q => (.full n q.1, q.2) := by
          intro x hx
          rw [body, hresume x hx]
          rfl
        rw [hbody rest hrest] at h
        have hlt : rest.length < (u ++ rest).length := by
          have hpos := List.length_pos_iff.2 hu
          rw [List.length_append]
          omega
        have hbreaks := breaksOff_elementRest (name_of_startTag htagged)
          (fun x fault' hx hread => ih x.length (Nat.lt_trans hx hlt) hread rfl) hrest
          (error_of_map h)
        refine hbreaks.behind (fun _ _ _ => stops_noGlue) ?_ ?_ ?_
        · rintro x hx ⟨items, hread⟩
          have hstops := stops_isBlank_of_follows hx hrest
          exact ⟨.full n items, by rw [hbody x hstops, hread]; rfl⟩
        · rintro x hx ⟨e, last, hread⟩
          have hstops : Stops isBlank x := by rwa [Stops, hx]
          rw [hbody x hstops] at hread
          obtain ⟨q, hq, -⟩ := map_eq_ok_iff.1 hread
          exact ⟨q.1, q.2, hq⟩
        · rintro front part last - hat
          refine hat.append fun q m _ hq => ?_
          rw [← List.cons_append]
          exact Innermost.of_inside htagged hq

end Bodies

section OpenTexts

theorem exists_cons_of_innermost (h : Innermost u n) : ∃ c w, u = '<' :: c :: w ∧ c ≠ '/' := by
  cases h with
  | last htag =>
    obtain ⟨c, w, rfl, hc⟩ := exists_cons_of_startTag htag
    exact ⟨c, _, rfl, hc⟩
  | inner htag =>
    obtain ⟨c, w, rfl, hc⟩ := exists_cons_of_startTag htag
    exact ⟨c, _, rfl, hc⟩

theorem element_of_startTag (htag : StartTag u n false) (hx : Stops isBlank x) :
    outcome (element (u ++ x)) = (elementRest n x).map fun q => (.full n q.1, q.2) := by
  obtain ⟨c, w, rfl, -⟩ := exists_cons_of_startTag htag
  have hread : tag (c :: w ++ x) = .ok ((n, false), x) := by
    rw [← startTag_mark]
    exact startTag_eq_ok_iff.2 ⟨hx, _, htag, rfl⟩
  rw [List.cons_append, element_mark, body, hread]
  rfl

theorem element_of_innermost (h : Innermost u n) :
    outcome (element u) = .error (Fault.before [] (Requirement.endTag n).text) := by
  induction h with
  | @last t u n items htag hu =>
    have hblank : Stops isBlank (u ++ []) := stops_content hu stops_nil
    have hread : elementRest n (u ++ []) = _ := elementRest_content hu stops_nil
    rw [List.append_nil] at hblank hread
    rw [elementRest_nil] at hread
    rw [element_of_startTag htag hblank, hread]
    rfl
  | @inner t u q m n items htag hu hq ih =>
    obtain ⟨c, w, rfl, hc⟩ := exists_cons_of_innermost hq
    have hstops : Stops (· != '<') ('<' :: c :: w) := stops_cons.2 rfl
    have hslash : (c :: w).head? ≠ some '/' := by simpa using hc
    rw [element_mark] at ih
    rw [element_of_startTag htag (stops_content hu hstops), elementRest_content hu hstops,
      elementRest_mark hslash, ih]
    rfl

theorem element_of_innermostOpen (h : InnermostOpen t n) :
    outcome (element (skipBlank t)) = .error (Fault.before [] (Requirement.endTag n).text) := by
  cases h with
  | @spaced b q n hb hq =>
    have hskip : skipBlank (b ++ q) = q := by
      obtain ⟨c, w, rfl, -⟩ := exists_cons_of_innermost hq
      exact hb.dropWhile_append (stops_cons.2 rfl)
    rw [hskip]
    exact element_of_innermost hq

theorem InnermostOpen.unique (hn : InnermostOpen t n) (hm : InnermostOpen t m) : n = m := by
  have hsame := element_of_innermostOpen hn
  rw [element_of_innermostOpen hm] at hsame
  exact (eq_of_endTag_text_eq (congrArg Fault.expected (Except.error.inj hsame))).symm

end OpenTexts

end TextScan.Xml
