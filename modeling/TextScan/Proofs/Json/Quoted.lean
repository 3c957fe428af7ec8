import TextScan.Proofs.Json.Grammar
import TextScan.Proofs.Outcome

namespace TextScan.Json.Quoted

open Grammar Text CharClass

variable {t rest : Text} {c : Char}

instance {n : Nat} : Decidable (HexDigit c n) :=
  inferInstanceAs (Decidable (_ ∧ _))

theorem hexDigit_digitChar :
    ∀ n < 16, (CharClass.isHexDigit (Nat.digitChar n) = true ∧ hexValue (Nat.digitChar n) = n) ∧
      CharClass.isHexDigit (Nat.digitChar n).toUpper = true ∧
        hexValue (Nat.digitChar n).toUpper = n := by
  decide

theorem HexDigit.spec {n : Nat} (h : HexDigit c n) :
    CharClass.isHexDigit c = true ∧ hexValue c = n := by
  rcases h.2 with rfl | rfl
  · exact (hexDigit_digitChar n h.1).1
  · exact (hexDigit_digitChar n h.1).2

theorem toNat_lt_of_isHexDigit (h : CharClass.isHexDigit c = true) : c.toNat < 128 := by
  simp only [CharClass.isHexDigit, Char.isDigit, Bool.or_eq_true, Bool.and_eq_true,
    decide_eq_true_eq, Char.le_def, UInt32.le_iff_toNat_le] at h
  change c.val.toNat < 128
  rcases h with (⟨-, h⟩ | ⟨-, h⟩) | ⟨-, h⟩
  · exact Nat.lt_of_le_of_lt h (by decide)
  · exact Nat.lt_of_le_of_lt h (by decide)
  · exact Nat.lt_of_le_of_lt h (by decide)

theorem hexDigit_of_toNat_lt :
    ∀ k < 128, CharClass.isHexDigit (Char.ofNat k) = true →
      HexDigit (Char.ofNat k) (hexValue (Char.ofNat k)) := by
  decide

theorem hexDigit_hexValue (h : CharClass.isHexDigit c = true) : HexDigit c (hexValue c) := by
  have hc := hexDigit_of_toNat_lt c.toNat (toNat_lt_of_isHexDigit h)
  rw [Char.ofNat_toNat] at hc
  exact hc h

theorem unit_value (a b c d : Char) :
    [a, b, c, d].foldl (fun n x => 16 * n + hexValue x) 0 =
      0x1000 * hexValue a + 0x100 * hexValue b + 0x10 * hexValue c + hexValue d := by
  simp only [List.foldl_cons, List.foldl_nil]
  omega

theorem unit_append {u : Text} {n : Nat} (h : HexUnit u n) : unit (u ++ rest) = .ok (n, rest) := by
  cases h with
  | @digits a b c d i j k l ha hb hc hd =>
    obtain ⟨isA, rfl⟩ := HexDigit.spec ha
    obtain ⟨isB, rfl⟩ := HexDigit.spec hb
    obtain ⟨isC, rfl⟩ := HexDigit.spec hc
    obtain ⟨isD, rfl⟩ := HexDigit.spec hd
    have hall : [a, b, c, d].all CharClass.isHexDigit = true := by
      simp only [List.all_cons, List.all_nil, isA, isB, isC, isD, Bool.and_true]
    rw [← unit_value]
    exact if_pos hall

theorem exists_hexUnit {n : Nat} (h : unit t = .ok (n, rest)) :
    ∃ u, HexUnit u n ∧ t = u ++ rest := by
  unfold unit at h
  split at h
  · next a b c d r =>
    split at h
    · next hall =>
      obtain ⟨rfl, rfl⟩ := Prod.mk.inj (Except.ok.inj h)
      simp only [List.all_cons, List.all_nil, Bool.and_true, Bool.and_eq_true] at hall
      obtain ⟨ha, hb, hc, hd⟩ := hall
      refine ⟨[a, b, c, d], ?_, rfl⟩
      have hunit := HexUnit.digits (hexDigit_hexValue ha) (hexDigit_hexValue hb)
        (hexDigit_hexValue hc) (hexDigit_hexValue hd)
      rw [unit_value]
      exact hunit
    · simp [fail] at h
  · simp [fail] at h

theorem HexUnit.lt {u : Text} {n : Nat} (h : HexUnit u n) : n < 0x10000 := by
  cases h with
  | digits ha hb hc hd =>
    have hi := ha.1
    have hj := hb.1
    have hk := hc.1
    have hl := hd.1
    omega

theorem isValidChar_toNat (c : Char) : c.toNat < 0xD800 ∨ 0xDFFF < c.toNat ∧ c.toNat < 0x110000 :=
  c.valid

theorem toNat_ofNat {n : Nat} (h : n < 0xD800 ∨ 0xDFFF < n ∧ n < 0x110000) :
    (Char.ofNat n).toNat = n := by
  rw [Char.ofNat, dif_pos h]
  rfl

theorem isHighSurrogate_iff {n : Nat} : isHighSurrogate n = true ↔ 0xD800 ≤ n ∧ n < 0xDC00 := by
  rw [isHighSurrogate, Bool.and_eq_true, decide_eq_true_eq, decide_eq_true_eq]

theorem isLowSurrogate_iff {n : Nat} : isLowSurrogate n = true ↔ 0xDC00 ≤ n ∧ n < 0xE000 := by
  rw [isLowSurrogate, Bool.and_eq_true, decide_eq_true_eq, decide_eq_true_eq]

theorem surrogates_ofSurrogates {high low : Nat} (hhigh : isHighSurrogate high = true)
    (hlow : isLowSurrogate low = true) :
    0x10000 ≤ (ofSurrogates high low).toNat ∧ highSurrogate (ofSurrogates high low) = high ∧
      lowSurrogate (ofSurrogates high low) = low := by
  rw [isHighSurrogate_iff] at hhigh
  rw [isLowSurrogate_iff] at hlow
  have hcode : (ofSurrogates high low).toNat =
      0x10000 + (high - 0xD800) * 0x400 + (low - 0xDC00) := toNat_ofNat (by omega)
  rw [highSurrogate, lowSurrogate, hcode]
  omega

theorem ofSurrogates_surrogates (h : 0x10000 ≤ c.toNat) :
    isHighSurrogate (highSurrogate c) = true ∧ isLowSurrogate (lowSurrogate c) = true ∧
      ofSurrogates (highSurrogate c) (lowSurrogate c) = c := by
  have hvalid := isValidChar_toNat c
  refine ⟨isHighSurrogate_iff.2 ?_, isLowSurrogate_iff.2 ?_, ?_⟩
  · rw [highSurrogate]
    omega
  · rw [lowSurrogate]
    omega
  · have hcode : 0x10000 + (highSurrogate c - 0xD800) * 0x400 + (lowSurrogate c - 0xDC00) =
        c.toNat := by
      rw [highSurrogate, lowSurrogate]
      omega
    rw [ofSurrogates, hcode, Char.ofNat_toNat]

theorem codeEscape_unit {u : Text} (h : HexUnit u c.toNat) :
    codeEscape (u ++ rest) = .ok (c, rest) := by
  have hvalid := isValidChar_toNat c
  have hhigh : isHighSurrogate c.toNat = false := by
    rw [Bool.eq_false_iff, Ne, isHighSurrogate_iff]
    omega
  have hlow : isLowSurrogate c.toNat = false := by
    rw [Bool.eq_false_iff, Ne, isLowSurrogate_iff]
    omega
  rw [codeEscape, unit_append h]
  simp only [bind, Except.bind, hhigh, hlow, Bool.false_eq_true, if_false, Char.ofNat_toNat]

theorem codeEscape_units {u w : Text} {high low : Nat} (hu : HexUnit u high) (hw : HexUnit w low)
    (hhigh : isHighSurrogate high = true) (hlow : isLowSurrogate low = true) :
    codeEscape (u ++ '\\' :: 'u' :: (w ++ rest)) = .ok (ofSurrogates high low, rest) := by
  have hmark : Text.dropPrefix? ['\\', 'u'] ('\\' :: 'u' :: (w ++ rest)) = some (w ++ rest) :=
    Text.dropPrefix?_append ['\\', 'u'] (w ++ rest)
  rw [codeEscape, unit_append hu]
  simp only [bind, Except.bind, hhigh, if_true, hmark, unit_append hw, hlow]

theorem codeEscape_pair {u w : Text} (h : 0x10000 ≤ c.toNat) (hu : HexUnit u (highSurrogate c))
    (hw : HexUnit w (lowSurrogate c)) :
    codeEscape (u ++ '\\' :: 'u' :: (w ++ rest)) = .ok (c, rest) := by
  obtain ⟨hhigh, hlow, hc⟩ := ofSurrogates_surrogates h
  rw [codeEscape_units hu hw hhigh hlow, hc]

theorem spelling_of_codeEscape (h : codeEscape t = .ok (c, rest)) :
    ∃ w, Spelling ('\\' :: 'u' :: w) c ∧ t = w ++ rest := by
  obtain ⟨⟨high, behind⟩, hunit, hnext⟩ := bind_eq_ok_iff.1 h
  obtain ⟨u, hu, rfl⟩ := exists_hexUnit hunit
  clear h
  simp only at hnext
  split at hnext
  · next hhigh =>
    split at hnext
    · simp [fail] at hnext
    · next second hsecond =>
      obtain rfl := Text.dropPrefix?_eq_some_iff.1 hsecond
      obtain ⟨⟨low, last⟩, hunit, hlast⟩ := bind_eq_ok_iff.1 hnext
      obtain ⟨w, hw, rfl⟩ := exists_hexUnit hunit
      simp only at hlast
      split at hlast
      · next hlow =>
        obtain ⟨rfl, rfl⟩ := Prod.mk.inj (Except.ok.inj hlast)
        obtain ⟨hle, hh, hl⟩ := surrogates_ofSurrogates hhigh hlow
        rw [← hh] at hu
        rw [← hl] at hw
        refine ⟨u ++ '\\' :: 'u' :: w, .pair hle hu hw, ?_⟩
        rw [List.append_assoc]
        rfl
      · simp [fail] at hlast
  · next hhigh =>
    split at hnext
    · simp [fail] at hnext
    · next hlow =>
      obtain ⟨rfl, rfl⟩ := Prod.mk.inj (Except.ok.inj hnext)
      have hcode : (Char.ofNat high).toNat = high := by
        have hlt := HexUnit.lt hu
        rw [isHighSurrogate_iff] at hhigh
        rw [isLowSurrogate_iff] at hlow
        exact toNat_ofNat (by omega)
      rw [← hcode] at hu
      exact ⟨u, .unit hu, rfl⟩

theorem shortEscape?_eq_some_iff {e : Char} :
    shortEscape? e = some c ↔ (e, c) ∈ shortEscapes := by
  constructor
  · intro h
    unfold shortEscape? at h
    split at h <;> simp only [Option.some.injEq, reduceCtorEq] at h <;> subst h <;>
      simp [shortEscapes]
  · intro h
    simp only [shortEscapes, List.mem_cons, Prod.mk.injEq, List.not_mem_nil, or_false] at h
    rcases h with ⟨rfl, rfl⟩ | ⟨rfl, rfl⟩ | ⟨rfl, rfl⟩ | ⟨rfl, rfl⟩ | ⟨rfl, rfl⟩ | ⟨rfl, rfl⟩ |
      ⟨rfl, rfl⟩ | ⟨rfl, rfl⟩ <;> rfl

theorem escape_append {w : Text} (h : Spelling ('\\' :: w) c) :
    escape (w ++ rest) = .ok (c, rest) := by
  generalize hw : '\\' :: w = w' at h
  cases h with
  | raw _ hne => exact absurd (List.cons.inj hw).1.symm hne
  | @short e c he =>
    obtain rfl := (List.cons.inj hw).2
    have hu : e ≠ 'u' := by
      rintro rfl
      have hnone := shortEscape?_eq_some_iff.2 he
      simp [shortEscape?] at hnone
    rw [List.cons_append, List.nil_append, escape, shortEscape?_eq_some_iff.2 he]
    exact hu
  | unit hu =>
    obtain rfl := (List.cons.inj hw).2
    rw [List.cons_append, escape]
    exact codeEscape_unit hu
  | pair h hu hlow =>
    obtain rfl := (List.cons.inj hw).2
    rw [List.cons_append, List.append_assoc, escape]
    exact codeEscape_pair h hu hlow

theorem spelling_of_escape (h : escape t = .ok (c, rest)) :
    ∃ w, Spelling ('\\' :: w) c ∧ t = w ++ rest := by
  unfold escape at h
  split at h
  · simp [fail] at h
  · next behind =>
    obtain ⟨w, hw, rfl⟩ := spelling_of_codeEscape h
    exact ⟨'u' :: w, hw, rfl⟩
  · next e behind hne =>
    split at h
    · next x hx =>
      obtain ⟨rfl, rfl⟩ := Prod.mk.inj (Except.ok.inj h)
      exact ⟨[e], .short (shortEscape?_eq_some_iff.1 hx), rfl⟩
    · simp [fail] at h

theorem spellings_of_body {s : Text} (h : body t = .ok (s, rest)) :
    ∃ w, Spellings w s ∧ t = w ++ '"' :: rest := by
  fun_induction body t generalizing s with
  | case1 => simp [fail] at h
  | case2 behind =>
    obtain ⟨rfl, rfl⟩ := Prod.mk.inj (Except.ok.inj h)
    exact ⟨[], .nil, rfl⟩
  | case3 behind fault hfault => simp at h
  | case4 behind x after hx hlt ih =>
    obtain ⟨⟨s', last⟩, hbody, heq⟩ := map_eq_ok_iff.1 h
    obtain ⟨rfl, rfl⟩ := Prod.mk.inj heq
    obtain ⟨w, hw, rfl⟩ := spelling_of_escape hx
    obtain ⟨w', hw', rfl⟩ := ih hbody
    refine ⟨('\\' :: w) ++ w', .cons hw hw', ?_⟩
    rw [List.append_assoc]
    rfl
  | case5 x behind hquote hslash ih =>
    obtain ⟨⟨s', last⟩, hbody, heq⟩ := map_eq_ok_iff.1 h
    obtain ⟨rfl, rfl⟩ := Prod.mk.inj heq
    obtain ⟨w', hw', rfl⟩ := ih hbody
    exact ⟨[x] ++ w', .cons (.raw hquote hslash) hw', rfl⟩

theorem body_spelling {w : Text} (h : Spelling w c) :
    body (w ++ rest) = (body rest).map fun (s, last) => (c :: s, last) := by
  by_cases hraw : ∃ u, w = '\\' :: u
  · obtain ⟨u, rfl⟩ := hraw
    have hescape : escape (u ++ rest) = .ok (c, rest) := escape_append h
    rw [List.cons_append, body]
    split
    · next fault hfault => rw [hfault] at hescape; simp at hescape
    · next x behind hok =>
      rw [hok] at hescape
      obtain ⟨rfl, rfl⟩ := Prod.mk.inj (Except.ok.inj hescape)
      rfl
  · cases h with
    | raw hquote hslash =>
      rw [List.cons_append, List.nil_append, body]
      · exact hquote
      · exact hslash
    | short => exact absurd ⟨_, rfl⟩ hraw
    | unit => exact absurd ⟨_, rfl⟩ hraw
    | pair => exact absurd ⟨_, rfl⟩ hraw

theorem body_of_escape_error {fault : Fault} (h : escape t = .error fault) :
    body ('\\' :: t) = .error fault := by
  rw [body]
  split
  · next fault' hfault =>
    obtain rfl := Except.error.inj (hfault.symm.trans h)
    rfl
  · next c behind hok => cases hok.symm.trans h

theorem body_append {w s : Text} (h : Spellings w s) :
    body (w ++ '"' :: rest) = .ok (s, rest) := by
  induction h with
  | nil => rw [List.nil_append, body]
  | cons hc _ ih =>
    rw [List.append_assoc, body_spelling hc, ih]
    rfl

theorem body_eq_ok_iff {s : Text} :
    body t = .ok (s, rest) ↔ ∃ w, Spellings w s ∧ t = w ++ '"' :: rest := by
  constructor
  · exact spellings_of_body
  · rintro ⟨w, hw, rfl⟩
    exact body_append hw

end TextScan.Json.Quoted
