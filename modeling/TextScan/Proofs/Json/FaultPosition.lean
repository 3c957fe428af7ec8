import TextScan.Proofs.Json.BreakingOff

namespace TextScan.Json

open Grammar Text CharClass

variable {t u b b' x rest text front part v : Text} {fault : Fault} {report : Report}

section Documents

theorem document_of_element_ok {w : Json} (h : element value u = .ok (w, rest)) :
    document u = match skipBlank rest with
      | [] => .ok (w, [])
      | rest => fail .endOfInput rest := by
  change (element value u >>= fun r => match skipBlank r.2 with
    | [] => .ok (r.1, [])
    | rest => fail .endOfInput rest) = _
  rw [h]
  rfl

theorem reads_element_of_document (h : Reads document u) : Reads (element value) u := by
  obtain ⟨w, rest, hread⟩ := h
  obtain ⟨r, hr, -⟩ := bind_eq_ok_iff.1 hread
  exact ⟨r.1, r.2, hr⟩

theorem breaksOff_end {w : Json} (h : element value (u ++ (b ++ x)) = .ok (w, b ++ x))
    (hresume : ∀ y, Follows isGlue (b ++ x) y → element value (u ++ y) = .ok (w, y))
    (hb : Blank b) (hx : Stops isBlank x) (herror : document (u ++ (b ++ x)) = .error fault) :
    BreaksOff isGlue (InFront Unfinished fault) document (u ++ (b ++ x)) := by
  have hviable : document (u ++ b ++ []) = .ok (w, []) := by
    have hread : element value (u ++ b) = .ok (w, b) := by
      refine hresume b ?_
      cases b with
      | nil => exact .inr stops_nil
      | cons c b => exact .inl rfl
    have hskip : skipBlank b = [] := hb.dropWhile
    rw [List.append_nil, document_of_element_ok hread, hskip]
  have hlimit : ∀ c more z, x = c :: more →
      document (u ++ b ++ c :: z) = fail .endOfInput (c :: z) := by
    rintro c more z rfl
    have hread : element value (u ++ (b ++ c :: z)) = .ok (w, b ++ c :: z) := by
      refine hresume _ (.inl ?_)
      cases b <;> rfl
    have hc : Stops isBlank (c :: z) := stops_cons.2 hx.head
    rw [List.append_assoc, document_of_element_ok hread, skipBlank_blank_append hb hc]
  rw [document_of_element_ok h, skipBlank_blank_append hb hx] at herror
  rw [← List.append_assoc]
  cases x with
  | nil => cases herror
  | cons c more =>
    obtain rfl := Except.error.inj herror
    exact breaksOff_at rfl ⟨[], stops_nil, w, hviable⟩ fun d more' z hd => ⟨_, hlimit d more' z hd⟩

theorem breaksOff_document (h : document t = .error fault) :
    BreaksOff isGlue (InFront Unfinished fault) document t := by
  cases helement : element value t with
  | error fault' =>
    have hdocument : document t = .error fault' := by
      change (element value t >>= _) = _
      rw [helement]
      rfl
    rw [hdocument] at h
    obtain rfl := Except.error.inj h
    refine (breaksOff_element (fun _ _ _ => breaksOff_value) helement).before ?_ ?_
    · rintro x ⟨w, hw⟩
      refine ⟨[], stops_nil, w, ?_⟩
      rw [List.append_nil, document_of_element_ok hw]
      rfl
    · exact fun _ _ => reads_element_of_document
  | ok r =>
    obtain ⟨w, rest⟩ := r
    obtain ⟨u, -, rfl, hresume⟩ := resumes_element t w rest helement
    obtain ⟨b, x, rfl, hb, hx, -⟩ := exists_skipBlank rest
    exact breaksOff_end helement hresume hb hx h

end Documents

section Positions

theorem UnfinishedString.truncate (h : UnfinishedString front part) (hv : v <+: part) :
    UnfinishedString front v := by
  cases h with
  | nothing =>
    obtain rfl := List.prefix_nil.1 hv
    exact .nothing
  | escape hw hcode =>
    cases hcode with
    | digits hds hlength =>
      exact .escape hw (.digits (fun c hc => hds c (hv.subset hc))
        (Nat.le_trans hv.length_le hlength))
    | mark hu hhigh =>
      rcases List.prefix_cons_iff.1 hv with rfl | ⟨y, rfl, hy⟩
      · exact .nothing
      · obtain rfl := List.prefix_nil.1 hy
        exact .escape hw (.mark hu hhigh)
    | lowDigits hu hhigh hds hlength =>
      exact .escape hw (.lowDigits hu hhigh (fun c hc => hds c (hv.subset hc))
        (Nat.le_trans hv.length_le hlength))

theorem Unfinished.truncate (h : Unfinished front part) (hv : v <+: part) :
    Unfinished front v := by
  cases h with
  | nothing =>
    obtain rfl := List.prefix_nil.1 hv
    exact .nothing
  | word hw hpart hne =>
    refine .word hw (hv.trans hpart) ?_
    rintro rfl
    exact hne (hpart.eq_of_length (Nat.le_antisymm hpart.length_le hv.length_le))
  | number hrun => exact .number fun c hc => hrun c (hv.subset hc)
  | string hs => exact .string (hs.truncate hv)

def Accepted (text : Text) : Prop :=
  ∃ v, (parse text).value = .ok v

theorem accepted_iff_readsWhole : Accepted text ↔ ReadsWhole document text := by
  refine exists_congr fun w => ?_
  rw [parse_eq_ok_iff_document, document_eq_ok_iff]
  simp

theorem document_of_parse_error (h : (parse text).value = .error report) :
    document text = .error report.fault :=
  outcome_of_parse_error h

theorem fault_in_unfinished_lexeme (h : (parse text).value = .error report) :
    ∃ before part rest, text = before ++ (part ++ rest) ∧
      report.fault.remaining = (part ++ rest).size ∧
      LongestViable Accepted text (before ++ part) ∧ Unfinished before part := by
  obtain ⟨front, part, rest, v, rfl, ⟨hremaining, hpart⟩, hv, hlongest⟩ :=
    (breaksOff_document (document_of_parse_error h)).exists_longestViable
      fun _ => accepted_iff_readsWhole
  obtain ⟨tail, rfl⟩ := hv
  refine ⟨front, v, tail ++ rest, by rw [List.append_assoc], ?_, hlongest,
    hpart.truncate (List.prefix_append v tail)⟩
  rw [hremaining, List.append_assoc]

theorem fault_in_unfinished_word :
    (parse ['[', 't', 'r', 'u', 'e', ',', ' ', 'n', 'u', 'l', ']']).value =
        .error ⟨⟨"Expected a JSON value", 4⟩,
          some ['[', 't', 'r', 'u', 'e', ',', ' ', 'n', 'u', 'l', ']'], none⟩ ∧
      ∃ before part rest : Text,
        ['[', 't', 'r', 'u', 'e', ',', ' ', 'n', 'u', 'l', ']'] =
          before ++ (part ++ rest) ∧
        4 = Text.size (part ++ rest) ∧
        LongestViable Accepted ['[', 't', 'r', 'u', 'e', ',', ' ', 'n', 'u', 'l', ']']
          (before ++ part) ∧ Unfinished before part := by
  have h : (parse ['[', 't', 'r', 'u', 'e', ',', ' ', 'n', 'u', 'l', ']']).value =
      .error ⟨⟨"Expected a JSON value", 4⟩,
        some ['[', 't', 'r', 'u', 'e', ',', ' ', 'n', 'u', 'l', ']'], none⟩ := rfl
  exact ⟨h, fault_in_unfinished_lexeme h⟩

end Positions

end TextScan.Json
