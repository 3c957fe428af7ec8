import TextScan.Proofs.Json.Numeral
import TextScan.Proofs.Json.Quoted
import TextScan.Proofs.Reading

namespace TextScan.Json

open Grammar Text CharClass

-- What has been read behind `\u`, and the part of the next piece: four digits, and behind a high
-- surrogate a backslash, a `u` and four digits more. A fault stands between the two.
inductive UnfinishedCode : Text → Text → Prop
  | digits {ds : Text} : (∀ c ∈ ds, isHexDigit c = true) → ds.length ≤ 3 → UnfinishedCode [] ds
  | mark {u : Text} {high : Nat} : HexUnit u high → Quoted.isHighSurrogate high = true →
      UnfinishedCode u ['\\']
  | lowDigits {u ds : Text} {high : Nat} : HexUnit u high →
      Quoted.isHighSurrogate high = true → (∀ c ∈ ds, isHexDigit c = true) → ds.length ≤ 3 →
      UnfinishedCode (u ++ ['\\', 'u']) ds

-- Behind the opening quote. Where only the closing quote is missing, or no escape has the character
-- behind the backslash, nothing stands between the fault and the place where the text goes wrong.
inductive UnfinishedString : Text → Text → Prop
  | nothing {w : Text} : UnfinishedString w []
  | escape {w s u part : Text} : Spellings w s → UnfinishedCode u part →
      UnfinishedString (w ++ '\\' :: 'u' :: u) part

-- What may stand before a fault, and the front of a lexeme that may stand behind it. A word and a
-- number are looked at as a whole, a string piece by piece.
inductive Unfinished : Text → Text → Prop
  | nothing {before : Text} : Unfinished before []
  | word {before part w : Text} : w ∈ [nullWord, trueWord, falseWord] → part <+: w → part ≠ w →
      Unfinished before part
  | number {before part : Text} : (∀ c ∈ part, Numeral.isNumeralChar c = true) →
      Unfinished before part
  | string {o w part : Text} : UnfinishedString w part → Unfinished (o ++ '"' :: w) part

def InFront (shape : Text → Text → Prop) (fault : Fault) (front part rest : Text) : Prop :=
  fault.remaining = (part ++ rest).size ∧ shape front part

-- More of a number, or a blank: neither ends what stands before it.
def isGlue (c : Char) : Bool :=
  Numeral.isNumeralChar c || isBlank c

namespace Quoted

variable {t u rest : Text} {fault : Fault}

theorem HexUnit.all {n : Nat} (h : HexUnit u n) :
    (∀ c ∈ u, CharClass.isHexDigit c = true) ∧ u.length = 4 := by
  cases h with
  | digits ha hb hc hd =>
    refine ⟨?_, rfl⟩
    simp only [List.forall_mem_cons, (HexDigit.spec ha).1, (HexDigit.spec hb).1,
      (HexDigit.spec hc).1, (HexDigit.spec hd).1]
    simp

theorem HexUnit.split {n : Nat} (h : HexUnit u n) :
    ∃ ds d, u = ds ++ [d] ∧ (∀ c ∈ ds, CharClass.isHexDigit c = true) ∧ ds.length = 3 := by
  have hall := (HexUnit.all h).1
  cases h with
  | @digits a b c d =>
    have hsplit : ∀ x ∈ [a, b, c] ++ [d], CharClass.isHexDigit x = true := hall
    exact ⟨[a, b, c], d, rfl, (List.forall_mem_append.1 hsplit).1, rfl⟩

theorem exists_unit_of_hexDigits {part : Text}
    (h : ∀ c ∈ part, CharClass.isHexDigit c = true) (hlength : 4 ≤ part.length) :
    ∃ n y, unit (part ++ rest) = .ok (n, y) := by
  match part, hlength with
  | a :: b :: c :: d :: part, _ =>
    have hall : [a, b, c, d].all CharClass.isHexDigit = true :=
      List.all_eq_true.2 fun x hx => h x (by
        simp only [List.mem_cons, List.not_mem_nil, or_false] at hx ⊢
        rcases hx with rfl | rfl | rfl | rfl <;> simp)
    exact ⟨_, _, if_pos hall⟩

theorem four_le_of_unit {n : Nat} (h : unit t = .ok (n, rest)) :
    4 ≤ (t.takeWhile CharClass.isHexDigit).length := by
  obtain ⟨u, hu, rfl⟩ := exists_hexUnit h
  obtain ⟨hall, hlength⟩ := HexUnit.all hu
  rw [List.takeWhile_append_of_pos hall, List.length_append]
  omega

-- The digits of a unit that is missing or not good, as far as a good one could have them.
theorem exists_unit_limit {good : Nat → Bool}
    (h : ∀ n rest, unit t = .ok (n, rest) → good n = false) :
    ∃ part rest, t = part ++ rest ∧ (∀ c ∈ part, CharClass.isHexDigit c = true) ∧
      part.length ≤ 3 ∧ ∀ c more z n y, rest = c :: more → unit (part ++ c :: z) = .ok (n, y) →
        good n = false := by
  obtain ⟨part, rest, rfl, hpart, hrest, -⟩ := exists_split_at_stop CharClass.isHexDigit t
  by_cases hlength : part.length ≤ 3
  · refine ⟨part, rest, rfl, hpart, hlength, ?_⟩
    intro c more z n y hc hn
    rw [hc] at hrest
    have hfour := four_le_of_unit hn
    rw [takeWhile_append_stops hpart (stops_cons.2 hrest.head)] at hfour
    omega
  · obtain ⟨n, y, hn⟩ : ∃ n y, unit (part ++ rest) = .ok (n, y) :=
      exists_unit_of_hexDigits hpart (by omega)
    obtain ⟨u, hu, hsplit⟩ := exists_hexUnit hn
    obtain ⟨ds, d, rfl, hds, hthree⟩ := HexUnit.split hu
    refine ⟨ds, d :: y, by rw [hsplit, List.append_assoc]; rfl, hds, by omega, ?_⟩
    intro c more z m x hc hm
    obtain rfl := (List.cons.inj hc).1
    have hsame : unit (ds ++ d :: z) = .ok (n, z) := by
      rw [List.append_cons]
      exact unit_append hu
    rw [hsame] at hm
    obtain ⟨rfl, -⟩ := Prod.mk.inj (Except.ok.inj hm)
    exact h _ _ hn

theorem remaining_of_unit (h : unit t = .error fault) : fault.remaining = t.size := by
  unfold unit at h
  split at h
  · split at h
    · cases h
    · obtain rfl := Except.error.inj h
      rfl
  · obtain rfl := Except.error.inj h
    rfl

theorem isHighSurrogate_of_isLowSurrogate {n : Nat} (h : isLowSurrogate n = true) :
    isHighSurrogate n = false := by
  rw [isLowSurrogate_iff] at h
  rw [Bool.eq_false_iff, Ne, isHighSurrogate_iff]
  omega

theorem codeEscape_of_isLowSurrogate {n : Nat} (hunit : unit t = .ok (n, rest))
    (hlow : isLowSurrogate n = true) : codeEscape t = fail .scalar t := by
  rw [codeEscape, hunit]
  simp only [bind, Except.bind, isHighSurrogate_of_isLowSurrogate hlow, hlow, Bool.false_eq_true,
    if_false, if_true]

theorem codeEscape_of_mark {u second : Text} {high : Nat} (hu : HexUnit u high)
    (hhigh : isHighSurrogate high = true) :
    codeEscape (u ++ '\\' :: 'u' :: second) = unit second >>= fun r =>
      if isLowSurrogate r.1 then .ok (ofSurrogates high r.1, r.2)
      else fail .lowSurrogate second := by
  have hmark : Text.dropPrefix? ['\\', 'u'] ('\\' :: 'u' :: second) = some second :=
    Text.dropPrefix?_append ['\\', 'u'] second
  rw [codeEscape, unit_append hu]
  simp only [bind, Except.bind, hhigh, if_true, hmark]

theorem codeEscape_of_noMark {u : Text} {high : Nat} (hu : HexUnit u high)
    (hhigh : isHighSurrogate high = true) (hmark : ¬ ['\\', 'u'] <+: rest) :
    codeEscape (u ++ rest) = fail .lowSurrogate rest := by
  rw [codeEscape, unit_append hu]
  simp only [bind, Except.bind, hhigh, if_true, dropPrefix?_eq_none_iff.2 hmark]

theorem part_of_mark {part : Text} (h : part <+: ['\\', 'u']) (hne : part ≠ ['\\', 'u']) :
    part = [] ∨ part = ['\\'] := by
  cases part with
  | nil => exact .inl rfl
  | cons a part =>
    obtain ⟨rfl, htail⟩ := List.cons_prefix_cons.1 h
    cases part with
    | nil => exact .inr rfl
    | cons b part =>
      obtain ⟨rfl, hend⟩ := List.cons_prefix_cons.1 htail
      obtain rfl := List.prefix_nil.1 hend
      exact absurd rfl hne

theorem lowUnit : HexUnit ['d', 'c', '0', '0'] 0xdc00 :=
  .digits (i := 13) (j := 12) (k := 0) (l := 0) (by decide) (by decide) (by decide) (by decide)

-- The first unit is missing or a low surrogate: its digits are read again from the first one.
theorem breaksOff_firstUnit (hfault : fault.remaining = t.size)
    (hbad : ∀ n rest, unit t = .ok (n, rest) → (!isLowSurrogate n) = false) :
    BreaksOff isGlue (InFront (fun front => UnfinishedString ('\\' :: 'u' :: front)) fault)
      codeEscape t := by
  obtain ⟨part, rest, rfl, hpart, hlength, hlimit⟩ := exists_unit_limit hbad
  refine ⟨[], part, rest, rfl, ⟨hfault, .escape .nil (.digits hpart hlength)⟩,
    ⟨['b', 'b', 'b', 'b'], fun _ => stops_cons.2 (by decide), _, rfl⟩, ?_⟩
  rintro c more z hc ⟨x, last, hread⟩
  obtain ⟨⟨n, behind⟩, hunit, -⟩ := bind_eq_ok_iff.1 hread
  have hlow : isLowSurrogate n = true := by simpa using hlimit c more z n behind hc hunit
  have hfail := codeEscape_of_isLowSurrogate hunit hlow
  rw [hread] at hfail
  cases hfail

theorem breaksOff_mark {u : Text} {high : Nat} (hu : HexUnit u high)
    (hhigh : isHighSurrogate high = true) (hfault : fault.remaining = rest.size)
    (hmark : ¬ ['\\', 'u'] <+: rest) :
    BreaksOff isGlue (InFront (fun front => UnfinishedString ('\\' :: 'u' :: front)) fault)
      codeEscape (u ++ rest) := by
  obtain ⟨part, last, rfl, hpart, hne, hlimit⟩ := exists_common_part hmark
  have hshape : UnfinishedString ('\\' :: 'u' :: u) part := by
    rcases part_of_mark hpart hne with rfl | rfl
    · exact .nothing
    · exact .escape .nil (.mark hu hhigh)
  refine ⟨u, part, last, rfl, ⟨hfault, hshape⟩,
    ⟨['\\', 'u', 'd', 'c', '0', '0'], fun _ => stops_cons.2 (by decide), _,
      codeEscape_units hu lowUnit hhigh (by decide)⟩, ?_⟩
  rintro c more z hc ⟨x, y, hread⟩
  rw [codeEscape_of_noMark hu hhigh (hlimit c more z hc)] at hread
  cases hread

theorem breaksOff_secondUnit {u second : Text} {high : Nat} (hu : HexUnit u high)
    (hhigh : isHighSurrogate high = true) (hfault : fault.remaining = second.size)
    (hbad : ∀ n rest, unit second = .ok (n, rest) → isLowSurrogate n = false) :
    BreaksOff isGlue (InFront (fun front => UnfinishedString ('\\' :: 'u' :: front)) fault)
      codeEscape (u ++ '\\' :: 'u' :: second) := by
  obtain ⟨part, rest, rfl, hpart, hlength, hlimit⟩ := exists_unit_limit hbad
  have hne : u ++ ['\\', 'u'] ≠ [] := by simp
  refine ⟨u ++ ['\\', 'u'], part, rest, by simp,
    ⟨hfault, .escape .nil (.lowDigits hu hhigh hpart hlength)⟩,
    ⟨['d', 'c', '0', '0'], fun hnil => absurd hnil hne, ofSurrogates high 0xdc00, ?_⟩, ?_⟩
  · rw [List.append_assoc]
    exact codeEscape_units hu lowUnit hhigh (by decide)
  · rintro c more z hc ⟨x, y, hread⟩
    rw [List.append_assoc] at hread
    change codeEscape (u ++ '\\' :: 'u' :: (part ++ c :: z)) = _ at hread
    rw [codeEscape_of_mark hu hhigh] at hread
    obtain ⟨⟨n, behind⟩, hunit, hnext⟩ := bind_eq_ok_iff.1 hread
    rw [if_neg (by rw [hlimit c more z n behind hc hunit]; decide)] at hnext
    cases hnext

theorem breaksOff_behindMark {u second : Text} {high : Nat} (hu : HexUnit u high)
    (hhigh : isHighSurrogate high = true)
    (h : codeEscape (u ++ '\\' :: 'u' :: second) = .error fault) :
    BreaksOff isGlue (InFront (fun front => UnfinishedString ('\\' :: 'u' :: front)) fault)
      codeEscape (u ++ '\\' :: 'u' :: second) := by
  rw [codeEscape_of_mark hu hhigh] at h
  cases hsecond : unit second with
  | error fault' =>
    rw [hsecond] at h
    obtain rfl := Except.error.inj h
    refine breaksOff_secondUnit hu hhigh (remaining_of_unit hsecond) fun n rest hn => ?_
    rw [hsecond] at hn
    cases hn
  | ok r =>
    obtain ⟨low, last⟩ := r
    rw [hsecond] at h
    change (if isLowSurrogate low then _ else _) = _ at h
    split at h
    · cases h
    · next hbad =>
      obtain rfl := Except.error.inj h
      refine breaksOff_secondUnit hu hhigh rfl fun n rest hn => ?_
      rw [hsecond] at hn
      obtain ⟨rfl, -⟩ := Prod.mk.inj (Except.ok.inj hn)
      simpa using hbad

theorem breaksOff_behindHigh {u : Text} {high : Nat} (hu : HexUnit u high)
    (hhigh : isHighSurrogate high = true) (h : codeEscape (u ++ rest) = .error fault) :
    BreaksOff isGlue (InFront (fun front => UnfinishedString ('\\' :: 'u' :: front)) fault)
      codeEscape (u ++ rest) := by
  by_cases hmark : ['\\', 'u'] <+: rest
  · obtain ⟨second, rfl⟩ := hmark
    exact breaksOff_behindMark hu hhigh h
  · rw [codeEscape_of_noMark hu hhigh hmark] at h
    obtain rfl := Except.error.inj h
    exact breaksOff_mark hu hhigh rfl hmark

theorem breaksOff_codeEscape (h : codeEscape t = .error fault) :
    BreaksOff isGlue (InFront (fun front => UnfinishedString ('\\' :: 'u' :: front)) fault)
      codeEscape t := by
  cases hunit : unit t with
  | error fault' =>
    rw [codeEscape, hunit] at h
    obtain rfl := Except.error.inj h
    refine breaksOff_firstUnit (remaining_of_unit hunit) fun n rest hn => ?_
    rw [hunit] at hn
    cases hn
  | ok r =>
    obtain ⟨high, rest⟩ := r
    cases hlow : isLowSurrogate high with
    | true =>
      rw [codeEscape_of_isLowSurrogate hunit hlow] at h
      obtain rfl := Except.error.inj h
      refine breaksOff_firstUnit rfl fun n rest hn => ?_
      rw [hunit] at hn
      obtain ⟨rfl, -⟩ := Prod.mk.inj (Except.ok.inj hn)
      rw [hlow]
      rfl
    | false =>
      obtain ⟨u, hu, rfl⟩ := exists_hexUnit hunit
      cases hhigh : isHighSurrogate high with
      | true => exact breaksOff_behindHigh hu hhigh h
      | false =>
        rw [codeEscape, hunit] at h
        simp only [bind, Except.bind, hhigh, hlow, Bool.false_eq_true, if_false] at h
        cases h

theorem breaksOff_escape (h : escape t = .error fault) :
    BreaksOff isGlue (InFront (fun front => UnfinishedString ('\\' :: front)) fault)
      escape t := by
  have hviable : ∃ z, ((([] : Text)) = [] → Stops isGlue z) ∧ ReadsWhole escape ([] ++ z) :=
    ⟨['n'], fun _ => stops_cons.2 (by decide), _, rfl⟩
  unfold escape at h
  split at h
  · obtain rfl := Except.error.inj h
    refine ⟨[], [], [], rfl, ⟨rfl, .nothing⟩, hviable, ?_⟩
    intro c more z hc
    cases hc
  · next rest =>
    have hcode := breaksOff_codeEscape h
    refine hcode.behind (u := ['u']) (fun _ _ hz => hz) ?_ ?_ ?_
    · exact fun _ _ hwhole => hwhole
    · exact fun _ _ hreads => hreads
    · exact fun _ _ _ _ hat => hat
  · next c rest hne =>
    split at h
    · cases h
    · next hnone =>
      obtain rfl := Except.error.inj h
      refine ⟨[], [], c :: rest, rfl, ⟨rfl, .nothing⟩, hviable, ?_⟩
      rintro d more z hd ⟨x, last, hread⟩
      obtain rfl := (List.cons.inj hd).1
      change escape (c :: z) = _ at hread
      rw [escape, hnone] at hread
      · cases hread
      · exact hne

theorem unfinishedString_append {c : Char} {w front part : Text} (hc : Spelling w c)
    (h : UnfinishedString front part) : UnfinishedString (w ++ front) part := by
  cases h with
  | nothing => exact .nothing
  | escape hw hu =>
    rw [← List.append_assoc]
    exact .escape (.cons hc hw) hu

theorem breaksOff_spelled {c : Char} {w : Text} (hc : Spelling w c)
    (h : BreaksOff isGlue (InFront UnfinishedString fault) body t) :
    BreaksOff isGlue (InFront UnfinishedString fault) body (w ++ t) := by
  refine h.behind (fun _ _ hz => hz) ?_ ?_ ?_
  · rintro x - ⟨s, hs⟩
    exact ⟨c :: s, by rw [body_spelling hc, hs]; rfl⟩
  · rintro x - ⟨s, last, hs⟩
    rw [body_spelling hc] at hs
    obtain ⟨⟨s', last'⟩, hbody, -⟩ := map_eq_ok_iff.1 hs
    exact ⟨s', last', hbody⟩
  · rintro front part rest - ⟨hremaining, hshape⟩
    exact ⟨hremaining, unfinishedString_append hc hshape⟩

theorem breaksOff_backslash (h : escape t = .error fault) :
    BreaksOff isGlue (InFront UnfinishedString fault) body ('\\' :: t) := by
  have hbody : BreaksOff isGlue (InFront (fun front => UnfinishedString ('\\' :: front)) fault)
      (fun x => body ('\\' :: x)) t := by
    refine (breaksOff_escape h).before ?_ ?_
    · rintro x ⟨c, hc⟩
      obtain ⟨w, hw, rfl⟩ := spelling_of_escape hc
      refine ⟨['"'], stops_cons.2 (by decide), [c], ?_⟩
      change body ('\\' :: w ++ [] ++ ['"']) = _
      rw [List.append_nil, body_spelling hw, body]
      rfl
    · rintro x - ⟨s, last, hread⟩
      change body ('\\' :: x) = _ at hread
      rw [body] at hread
      split at hread
      · cases hread
      · next c behind hc => exact ⟨c, behind, hc⟩
  refine hbody.behind (u := ['\\']) (fun _ _ hz => hz) ?_ ?_ ?_
  · exact fun _ _ hwhole => hwhole
  · exact fun _ _ hreads => hreads
  · exact fun _ _ _ _ hat => hat

theorem breaksOff_body (h : body t = .error fault) :
    BreaksOff isGlue (InFront UnfinishedString fault) body t := by
  fun_induction body t with
  | case1 =>
    obtain rfl := Except.error.inj h
    have hclose : ReadsWhole body ([] ++ ['"']) := ⟨[], by rw [List.nil_append, body]⟩
    refine .of_error ⟨rfl, .nothing⟩ ⟨['"'], fun _ => stops_cons.2 (by decide), hclose⟩ ?_
    intro c more z hc
    cases hc
  | case2 rest => cases h
  | case3 rest fault' hescape =>
    obtain rfl := Except.error.inj h
    exact breaksOff_backslash hescape
  | case4 rest x behind hescape hlt ih =>
    obtain ⟨w, hw, rfl⟩ := spelling_of_escape hescape
    exact breaksOff_spelled hw (ih (error_of_map h))
  | case5 x rest hquote hslash ih =>
    exact breaksOff_spelled (.raw hquote hslash) (ih (error_of_map h))

end Quoted

end TextScan.Json
