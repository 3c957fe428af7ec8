import TextScan.Proofs.Json.ExtendedLexeme
import TextScan.Proofs.Json.FaultPosition
import TextScan.Proofs.Text.Location

namespace TextScan.Json

open Grammar Text CharClass Repetition

variable {α : Type} {item : Text → Reading (α × Text)} {inner : Text → Reading (Json × Text)}
  {close : Char} {missing : Requirement} {t s b x text : Text} {limit : Nat}

section Sequences

theorem Steady.shortens (h : Steady item) : Shortens item :=
  fun _ _ _ hread => (h.suffix hread).length_le

def itemsBehind (item : Text → Reading (α × Text)) (limit : Nat) (t : Text) :
    Reading (List α × Text) :=
  item t >>= fun q => (collect (afterComma item) limit q.2).map fun p => (q.1 :: p.1, p.2)

theorem collect_comma (hb : Blank b) :
    collect (afterComma item) (limit + 1) (b ++ ',' :: t) = itemsBehind item limit t := by
  rw [collect, afterComma_append hb, itemsBehind]
  cases item t with
  | error fault => rfl
  | ok q =>
    simp only [Except.map, bind, Except.bind]
    cases collect (afterComma item) limit q.2 <;> rfl

theorem collect_noComma (hb : Blank b) (hx : Stops isBlank x) (hcomma : x.head? ≠ some ',') :
    collect (afterComma item) (limit + 1) (b ++ x) = .ok ([], b ++ x) := by
  rw [collect, afterComma_noComma hb hx hcomma]
  rfl

-- Blanks up to the end of the text: the comma may come behind it.
theorem extended_collect_blank (h : Steady (itemsBehind item limit)) (hb : Blank b) (s : Text) :
    Extended b s (collect (afterComma item) (limit + 1) b)
      (collect (afterComma item) (limit + 1) (b ++ s)) := by
  obtain ⟨b', x, rfl, hb', hx, -⟩ := exists_skipBlank s
  have hshort : collect (afterComma item) (limit + 1) (b ++ []) = .ok ([], b ++ []) :=
    collect_noComma hb stops_nil (by simp)
  rw [List.append_nil] at hshort
  rw [hshort, ← List.append_assoc]
  by_cases hcomma : x.head? = some ','
  · obtain ⟨x, rfl⟩ := List.head?_eq_some_iff.1 hcomma
    refine .reached ?_
    rw [collect_comma (hb.append hb')]
    refine Nat.le_trans (h.left_le x) ?_
    simp only [size_append, size_cons]
    omega
  · rw [collect_noComma (hb.append hb') hx hcomma, List.append_assoc]
    exact .ok (List.nil_append b).symm

theorem steady_collect (h : Steady item) (limit : Nat) :
    Steady (collect (afterComma item) limit) := by
  induction limit with
  | zero => exact steady_ok []
  | succ limit ih =>
    have hmore : Steady (itemsBehind item limit) := h.bind fun a => ih.map (a :: ·)
    intro t s
    obtain ⟨b, x, rfl, hb, hx, -⟩ := exists_skipBlank t
    cases x with
    | nil =>
      rw [List.append_nil]
      exact extended_collect_blank hmore hb s
    | cons c x =>
      rw [List.append_assoc, List.cons_append]
      by_cases hc : c = ','
      · subst hc
        rw [collect_comma hb, collect_comma hb]
        exact ((hmore x s).append_left [',']).append_left b
      · have hnot (y : Text) : (c :: y).head? ≠ some ',' := fun h => hc (Option.some.inj h)
        rw [collect_noComma hb hx (hnot x), collect_noComma hb (stops_cons.2 hx.head) (hnot _),
          ← List.cons_append, ← List.append_assoc]
        exact .ok (List.nil_append (b ++ c :: x)).symm

theorem steady_repeated (h : Steady item) : Steady (repeated (afterComma item)) := by
  intro t s
  have hlimit : repeated (afterComma item) t =
      collect (afterComma item) ((t ++ s).length + 1) t := by
    refine collect_eq_collect (consumes_afterComma h.shortens) (Nat.lt_succ_self _) ?_
    change t.length < (t ++ s).length + 1
    rw [List.length_append]
    omega
  rw [hlimit]
  exact steady_collect h _ t s

theorem steady_tail (h : Steady item) : Steady (tail close missing item) :=
  (steady_repeated h).bind fun more => steady_skipMark (steady_ok more)

theorem steady_items (h : Steady item) : Steady (items close missing item) :=
  h.bind fun a => (steady_tail h).map (a :: ·)

theorem steady_sequence (hclose : IsClose close)
    (hskip : ∀ b x, Blank b → item (b ++ x) = item x) (h : Steady item) :
    Steady (sequence close missing item) := by
  intro t s
  obtain ⟨b, x, rfl, hb, hx, -⟩ := exists_skipBlank t
  cases x with
  | nil =>
    rw [sequence_eq_items hb stops_nil (by simp) (hskip b [] hb)]
    exact .ended (Nat.le_zero.1 ((steady_items h).left_le []))
  | cons c x =>
    rw [List.append_assoc, List.cons_append]
    by_cases hc : c = close
    · subst hc
      rw [sequence, sequence, skipMark_append hb hclose.notBlank,
        skipMark_append hb hclose.notBlank]
      exact .ok (u := b ++ [c]) (by rw [List.append_assoc]; rfl)
    · have hnot (y : Text) : (c :: y).head? ≠ some close := fun h => hc (Option.some.inj h)
      rw [sequence_eq_items hb hx (hnot x) (hskip b _ hb),
        sequence_eq_items hb (stops_cons.2 hx.head) (hnot _) (hskip b _ hb)]
      exact (steady_items h (c :: x) s).append_left b

end Sequences

section Values

theorem steady_element (h : Steady inner) : Steady (element inner) :=
  h.behindBlanks

def namedValue (inner : Text → Reading (Json × Text)) (t : Text) :
    Reading ((Text × Json) × Text) :=
  Quoted.body t >>= fun q => skipMark ':' .colon q.2 >>= fun t =>
    (element inner t).map fun p => ((q.1, p.1), p.2)

theorem member_eq (t : Text) :
    member inner t = markThen '"' .memberName (namedValue inner) (skipBlank t) := by
  unfold member
  split
  · next rest hskip =>
    rw [hskip]
    change _ = namedValue inner rest
    rw [namedValue]
    cases Quoted.body rest with
    | error fault => rfl
    | ok q =>
      simp only [bind, Except.bind]
      cases skipMark ':' .colon q.2 with
      | error fault => rfl
      | ok t =>
        simp only [element]
        cases inner (skipBlank t) <;> rfl
  · next hquote =>
    cases hskip : skipBlank t with
    | nil => rfl
    | cons c x =>
      refine (if_neg ?_).symm
      rintro rfl
      exact hquote x hskip

theorem steady_member (h : Steady inner) : Steady (member inner) := by
  have hvalue : Steady (namedValue inner) := Quoted.steady_body.bind fun name =>
    steady_skipMark ((steady_element h).map fun v => (name, v))
  rw [funext member_eq]
  exact (steady_markThen hvalue).behindBlanks

def scalar : Text → Reading (Json × Text) :=
  literalThen nullWord (fun t => .ok (null, t)) <|
    literalThen trueWord (fun t => .ok (bool true, t)) <|
      literalThen falseWord (fun t => .ok (bool false, t)) fun t =>
        (Numeral.read t).map fun q => (number q.1, q.2)

theorem steady_scalar : Steady scalar :=
  steady_literalThen _ (steady_ok _) <| steady_literalThen _ (steady_ok _) <|
    steady_literalThen _ (steady_ok _) (steady_read.map number)

theorem valueWith_scalar {c : Char} (hc : ¬ IsOpening c) :
    valueWith inner (c :: t) = scalar (c :: t) := by
  rw [valueWith_word (fun h => hc (.inl h)) (fun h => hc (.inr (.inl h)))
    (fun h => hc (.inr (.inr h)))]
  unfold scalar word? literalThen
  cases dropPrefix? nullWord (c :: t) with
  | some rest => rfl
  | none =>
    cases dropPrefix? trueWord (c :: t) with
    | some rest => rfl
    | none => cases dropPrefix? falseWord (c :: t) <;> rfl

theorem steady_valueWith (h : Steady inner) : Steady (valueWith inner) := by
  have hobject : Steady (sequence '}' .commaOrBrace (member inner)) :=
    steady_sequence (.inr rfl) (fun _ _ => member_blank_append) (steady_member h)
  have harray : Steady (sequence ']' .commaOrBracket (element inner)) :=
    steady_sequence (.inl rfl) (fun _ _ => element_blank_append) (steady_element h)
  refine steady_of_cons rfl ?_
  intro c t s
  by_cases hc : IsOpening c
  · rcases hc with rfl | rfl | rfl
    · exact ((hobject t s).map object).append_left ['{']
    · exact ((harray t s).map array).append_left ['[']
    · exact ((Quoted.steady_body t s).map string).append_left ['"']
  · rw [valueWith_scalar hc, valueWith_scalar hc]
    exact steady_scalar (c :: t) s

theorem steady_valueUpTo (n : Nat) : Steady (valueUpTo n) := by
  induction n with
  | zero => exact steady_valueWith (steady_fail .value)
  | succ n ih => exact steady_valueWith ih

theorem steady_value : Steady value := by
  intro t s
  have hle : t.length ≤ (t ++ s).length := by simp
  have hlevels : value t = valueUpTo (t ++ s).length t := by
    rw [value_eq_valueWith, valueUpTo_eq_valueWith hle]
  rw [hlevels]
  exact steady_valueUpTo _ t s

def documentEnd (v : Json) : Text → Reading (Json × Text)
  | [] => .ok (v, [])
  | c :: t => fail .endOfInput (c :: t)

theorem steady_documentEnd (v : Json) : Steady (documentEnd v) :=
  steady_of_cons rfl fun c t s => .fail .endOfInput (c :: t) s

theorem document_eq (t : Text) :
    document t = element value t >>= fun q => documentEnd q.1 (skipBlank q.2) := by
  rw [document, element]
  cases value (skipBlank t) with
  | error fault => rfl
  | ok q =>
    simp only [bind, Except.bind]
    cases skipBlank q.2 <;> rfl

theorem steady_document : Steady document := by
  rw [funext document_eq]
  exact (steady_element steady_value).bind fun v => (steady_documentEnd v).behindBlanks

end Values

section Faults

theorem viable_of_left_le (h : left (document (text ++ s)) ≤ s.size) : Viable Accepted text := by
  cases hread : document (text ++ s) with
  | ok q =>
    obtain ⟨v, rest⟩ := q
    obtain ⟨-, rfl⟩ := document_eq_ok_iff.1 hread
    exact ⟨s, accepted_iff_readsWhole.2 ⟨v, hread⟩⟩
  | error fault =>
    rw [hread] at h
    obtain ⟨front, part, rest, hsplit, ⟨hremaining, -⟩, ⟨z, -, hwhole⟩, -⟩ :=
      breaksOff_document hread
    have hviable : Viable Accepted front := ⟨z, accepted_iff_readsWhole.2 hwhole⟩
    change fault.remaining ≤ s.size at h
    rw [hremaining] at h
    rcases List.append_eq_append_iff.1 hsplit with ⟨w, rfl, -⟩ | ⟨w, rfl, hback⟩
    · exact hviable.of_append
    -- What is left of the text in front of `s` has no bytes.
    · rw [hback, size_append] at h
      obtain rfl : w = [] := size_eq_zero_iff.1 (by omega)
      rwa [List.append_nil]

theorem exists_faults_of_notViable (h : ¬ Viable Accepted text) (s : Text) :
    ∃ front back fault fault', text = front ++ back ∧ document text = .error fault ∧
      document (text ++ s) = .error fault' ∧ fault.remaining = back.size ∧
      fault'.remaining = (back ++ s).size ∧
      (fault'.expected = fault.expected ∨ Reworded fault.expected fault'.expected back s) := by
  have hleft : left (document text) ≠ 0 := by
    intro hnone
    refine h (viable_of_left_le (s := []) ?_)
    rw [List.append_nil, hnone]
    exact Nat.zero_le _
  have hextended := steady_document text s
  generalize hx : document text = x at hextended hleft
  generalize hy : document (text ++ s) = y at hextended
  cases hextended with
  | ended hnone => exact absurd hnone hleft
  | reached hle =>
    rw [← hy] at hle
    exact absurd (viable_of_left_le hle) h
  | ok =>
    obtain ⟨-, rfl⟩ := document_eq_ok_iff.1 hx
    exact absurd rfl hleft
  | error htext hfault hfault' hmessage =>
    exact ⟨_, _, _, _, htext, rfl, rfl, hfault, hfault', hmessage⟩

theorem parse_of_document_error {fault : Fault} (h : document text = .error fault) :
    (parse text).value = .error ((Report.ofFault fault).withSource text) :=
  parse_of_error h

theorem fault_stays_in_place (h : ¬ Viable Accepted text) (s : Text) :
    ∃ report report' front back location,
      (parse text).value = .error report ∧ (parse (text ++ s)).value = .error report' ∧
      text = front ++ back ∧ report.fault.remaining = back.size ∧
      report'.fault.remaining = (back ++ s).size ∧
      (text ++ s).size - report'.fault.remaining = text.size - report.fault.remaining ∧
      report.location = some location ∧ report'.location = some location ∧
      (report'.fault.expected = report.fault.expected ∨
        Reworded report.fault.expected report'.fault.expected back s) := by
  obtain ⟨front, back, fault, fault', rfl, hshort, hlong, hfault, hfault', hmessage⟩ :=
    exists_faults_of_notViable h s
  have hoffset : (front ++ back ++ s).size - fault'.remaining =
      (front ++ back).size - fault.remaining := by
    rw [hfault, hfault']
    simp only [size_append]
    omega
  refine ⟨_, _, front, back, _, parse_of_document_error hshort, parse_of_document_error hlong,
    rfl, hfault, hfault', hoffset, rfl, ?_, hmessage⟩
  change some (Location.ofRemaining (front ++ back ++ s) fault'.remaining) =
    some (Location.ofRemaining (front ++ back) fault.remaining)
  rw [hfault, hfault', List.append_assoc, Location.ofRemaining_append,
    Location.ofRemaining_append]

theorem fault_stays_in_front_of_leading_zero :
    ¬ Viable Accepted ['[', '0', '1'] ∧
      ∃ report report' front back location,
        (parse ['[', '0', '1']).value = .error report ∧
        (parse ['[', '0', '1', 'e', '9', ',', '-', ']']).value = .error report' ∧
        ['[', '0', '1'] = front ++ back ∧ report.fault.remaining = Text.size back ∧
        report'.fault.remaining = Text.size (back ++ ['e', '9', ',', '-', ']']) ∧
        Text.size ['[', '0', '1', 'e', '9', ',', '-', ']'] - report'.fault.remaining =
          Text.size ['[', '0', '1'] - report.fault.remaining ∧
        report.location = some location ∧ report'.location = some location ∧
        (report'.fault.expected = report.fault.expected ∨
          Reworded report.fault.expected report'.fault.expected back
            ['e', '9', ',', '-', ']']) := by
  have hnot : ¬ Viable Accepted ['[', '0', '1'] := by
    rintro ⟨z, haccepted⟩
    obtain ⟨v, hread⟩ := accepted_iff_readsWhole.1 haccepted
    have hfail : document ('[' :: '0' :: '1' :: z) = fail .numberShape ('0' :: '1' :: z) := rfl
    cases hfail.symm.trans hread
  exact ⟨hnot, fault_stays_in_place hnot ['e', '9', ',', '-', ']']⟩

end Faults

end TextScan.Json
