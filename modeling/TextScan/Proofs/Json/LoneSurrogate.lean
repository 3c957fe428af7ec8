import TextScan.Proofs.Json.ByWords
import TextScan.Proofs.Json.StringFault

namespace TextScan.Json

open Grammar Text Clocked

variable {t text : Text} {fault : Fault} {r : Nat}

namespace Quoted

-- What stands before the escape is spelled out, so a high surrogate there has its low one.
inductive LoneLow : Text → Nat → Prop
  | escape {w s u rest : Text} {n : Nat} : Spellings w s → HexUnit u n → 0xDC00 ≤ n →
      n ≤ 0xDFFF → LoneLow (w ++ '\\' :: 'u' :: (u ++ rest)) (u ++ rest).size

theorem LoneLow.behind {c : Char} {w : Text} (hc : Spelling w c) (h : LoneLow t r) :
    LoneLow (w ++ t) r := by
  cases h with
  | escape hw hu hle hge =>
    rw [← List.append_assoc]
    exact .escape (.cons hc hw) hu hle hge

theorem exists_refused_of_checkedUnit {good : Nat → Bool} {bad m : Requirement}
    (h : checkedUnit good bad t = .error fault) (hm : fault.expected = m.text)
    (hdigits : m ≠ .fourHexDigits) :
    bad = m ∧ fault.remaining = t.size ∧
      ∃ u n rest, HexUnit u n ∧ good n = false ∧ t = u ++ rest := by
  rcases bind_eq_error_iff.1 h with hunit | ⟨⟨n, rest⟩, hunit, hgood⟩
  · exact absurd (eq_of_fail ((unit_of_error hunit).symm.trans hunit) hm).symm hdigits
  · simp only at hgood
    split at hgood
    · cases hgood
    · next hbad =>
      have hrefused := eq_of_fail hgood hm
      obtain rfl := Except.error.inj hgood
      obtain ⟨u, hu, hsplit⟩ := exists_hexUnit hunit
      exact ⟨hrefused, rfl, u, n, rest, hu, Bool.eq_false_iff.2 hbad, hsplit⟩

theorem exists_low_of_codeEscape (h : codeEscape t = .error fault)
    (hscalar : fault.expected = Requirement.scalar.text) :
    fault.remaining = t.size ∧
      ∃ u n rest, HexUnit u n ∧ isLowSurrogate n = true ∧ t = u ++ rest := by
  rw [codeEscape_eq] at h
  rcases bind_eq_error_iff.1 h with hunit | ⟨⟨n, rest⟩, -, hbehind⟩
  · obtain ⟨-, hremaining, u, n, rest, hu, hn, hsplit⟩ :=
      exists_refused_of_checkedUnit hunit hscalar (by decide)
    exact ⟨hremaining, u, n, rest, hu, by simpa using hn, hsplit⟩
  · simp only at hbehind
    split at hbehind
    · unfold literalThen at hbehind
      split at hbehind
      · have hlow := exists_refused_of_checkedUnit (error_of_map hbehind) hscalar (by decide)
        exact absurd hlow.1 (by decide)
      · exact absurd (eq_of_fail hbehind hscalar) (by decide)
    · cases hbehind

theorem loneLow_of_escape (h : escape t = .error fault)
    (hscalar : fault.expected = Requirement.scalar.text) :
    LoneLow ('\\' :: t) fault.remaining := by
  unfold escape at h
  split at h
  · exact absurd (eq_of_fail h hscalar) (by decide)
  · next rest =>
    obtain ⟨hremaining, u, n, last, hu, hlow, rfl⟩ := exists_low_of_codeEscape h hscalar
    obtain ⟨hle, hlt⟩ := isLowSurrogate_iff.1 hlow
    rw [hremaining]
    exact .escape .nil hu hle (Nat.le_of_lt_succ hlt)
  · split at h
    · cases h
    · exact absurd (eq_of_fail h hscalar) (by decide)

theorem loneLow_of_body (h : body t = .error fault)
    (hscalar : fault.expected = Requirement.scalar.text) : LoneLow t fault.remaining := by
  fun_induction body t with
  | case1 => exact absurd (eq_of_fail h hscalar) (by decide)
  | case2 => cases h
  | case3 rest fault' hescape =>
    obtain rfl := Except.error.inj h
    exact loneLow_of_escape hescape hscalar
  | case4 rest x behind hescape hlt ih =>
    obtain ⟨w, hw, rfl⟩ := spelling_of_escape hescape
    exact (ih (error_of_map h)).behind hw
  | case5 x rest hquote hslash ih => exact (ih (error_of_map h)).behind (.raw hquote hslash)

theorem body_of_loneLow (h : LoneLow t r) : body t = .error ⟨Requirement.scalar.text, r⟩ := by
  cases h with
  | @escape w s u rest n hw hu hle hge =>
    have hlow : isLowSurrogate n = true := isLowSurrogate_iff.2 ⟨hle, Nat.lt_succ_of_le hge⟩
    have hescape : escape ('u' :: (u ++ rest)) = fail .scalar (u ++ rest) :=
      codeEscape_of_isLowSurrogate (unit_append hu) hlow
    rw [body_spellings hw, body_of_escape_error hescape]
    rfl

theorem body_eq_scalar_iff : body t = .error ⟨Requirement.scalar.text, r⟩ ↔ LoneLow t r :=
  ⟨fun h => loneLow_of_body h rfl, body_of_loneLow⟩

theorem read_eq_scalar_iff :
    read t = .error ⟨Requirement.scalar.text, r⟩ ↔ ∃ x, t = '"' :: x ∧ LoneLow x r := by
  constructor
  · intro h
    unfold read at h
    split at h
    · next x => exact ⟨x, rfl, body_eq_scalar_iff.1 h⟩
    · exact absurd (eq_of_fail (r := .scalar) h rfl) (by decide)
  · rintro ⟨x, rfl, hx⟩
    exact body_of_loneLow hx

end Quoted

theorem exists_report_iff :
    (∃ report, (parse text).value = .error report ∧ report.fault = fault) ↔
      document text = .error fault := by
  constructor
  · rintro ⟨report, h, rfl⟩
    exact document_of_parse_error h
  · intro h
    exact ⟨_, parse_of_document_error h, rfl⟩

theorem document_eq_scalar_iff :
    document text = .error ⟨Requirement.scalar.text, r⟩ ↔
      ∃ front x, OpensString front ∧ text = front ++ '"' :: x ∧ Quoted.LoneLow x r := by
  rw [document_eq_error_iff ⟨.scalar, by decide, rfl⟩]
  simp only [Quoted.body_eq_scalar_iff]

theorem only_lone_low_surrogates_lack_characters :
    (∀ (text : Text) (clock : Nat), text.size < clock →
      ∃ notes, ByWords.document clock text = comes (document text) notes ∧
        ∀ conversion ∈ notes, conversion.Succeeds) ∧
    (∀ (t : Text) (clock : Nat), t.size < clock →
      ∃ notes, ByWords.string clock t = comes (Quoted.read t) notes ∧
        ∀ conversion ∈ notes, conversion.Succeeds) ∧
    (∀ t r, Quoted.read t = .error ⟨"Invalid unicode escape", r⟩ ↔
      ∃ x, t = '"' :: x ∧ Quoted.LoneLow x r) ∧
    ∀ text r, (∃ report, (parse text).value = .error report ∧
        report.fault = ⟨"Invalid unicode escape", r⟩) ↔
      ∃ front x, OpensString front ∧ text = front ++ '"' :: x ∧ Quoted.LoneLow x r := by
  refine ⟨fun _ _ => ByWords.exists_notes_document, fun _ _ => ByWords.exists_notes_string,
    fun _ _ => Quoted.read_eq_scalar_iff, ?_⟩
  intro text r
  rw [exists_report_iff]
  exact document_eq_scalar_iff

end TextScan.Json
