import TextScan.Proofs.Json.Finite
import TextScan.Proofs.Json.Quoted
import TextScan.Proofs.Json.WrittenNumber

namespace TextScan.Json.Strict

open Grammar (Number HexDigit HexUnit shortEscapes highSurrogate lowSurrogate Separated)

inductive Spelling : Text → Char → Prop
  | unescaped {c : Char} : 0x20 ≤ c.toNat → c ≠ '"' → c ≠ '\\' → Spelling [c] c
  | short {e c : Char} : (e, c) ∈ shortEscapes → Spelling ['\\', e] c
  | unit {u : Text} {c : Char} : HexUnit u c.toNat → Spelling ('\\' :: 'u' :: u) c
  | pair {u w : Text} {c : Char} : 0x10000 ≤ c.toNat → HexUnit u (highSurrogate c) →
      HexUnit w (lowSurrogate c) → Spelling ('\\' :: 'u' :: (u ++ '\\' :: 'u' :: w)) c

inductive Spellings : Text → Text → Prop
  | nil : Spellings [] []
  | cons {u w s : Text} {c : Char} : Spelling u c → Spellings w s → Spellings (u ++ w) (c :: s)

inductive Quote : Text → Text → Prop
  | marks {w s : Text} : Spellings w s → Quote ('"' :: (w ++ ['"'])) s

inductive Joined {α : Type} (R : Text → α → Prop) : Text → List α → Prop
  | last {t : Text} {a : α} : R t a → Joined R t [a]
  | more {t u : Text} {a : α} {as : List α} : R t a → Joined R u as →
      Joined R (t ++ ',' :: u) (a :: as)

inductive Member (R : Text → Json → Prop) : Text → Text × Json → Prop
  | parts {s t name : Text} {v : Json} : Quote s name → R t v → Member R (s ++ ':' :: t) (name, v)

inductive Value : Text → Json → Prop
  | null : Value nullWord null
  | true : Value trueWord (bool Bool.true)
  | false : Value falseWord (bool Bool.false)
  | number {t : Text} {n : Numeral} : Number t n → n.toBinary.isFinite = Bool.true →
      Value t (number n.toBinary)
  | string {t s : Text} : Quote t s → Value t (string s)
  | emptyArray : Value ['[', ']'] (array [])
  | array {t : Text} {vs : List Json} : Joined Value t vs → Value ('[' :: (t ++ [']'])) (array vs)
  | emptyObject : Value ['{', '}'] (object [])
  | object {t : Text} {ms : List (Text × Json)} : Joined (Member Value) t ms →
      Value ('{' :: (t ++ ['}'])) (object ms)

variable {t u w s : Text} {c : Char}

section Wider

theorem Spelling.wider (h : Spelling u c) : Grammar.Spelling u c := by
  cases h with
  | unescaped _ hquote hslash => exact .raw hquote hslash
  | short he => exact .short he
  | unit hu => exact .unit hu
  | pair hle hu hw => exact .pair hle hu hw

theorem Spellings.wider (h : Spellings w s) : Grammar.Spellings w s := by
  induction h with
  | nil => exact .nil
  | cons hc _ ih => exact .cons hc.wider ih

theorem Quote.wider (h : Quote t s) : Grammar.Quote t s := by
  cases h with
  | marks hw => exact .marks hw.wider

theorem separated_last {α : Type} {R : Text → α → Prop} {a : α} (h : R t a) :
    Separated R t [a] := by
  have hlast := Separated.last .nil h .nil
  rwa [List.nil_append, List.append_nil] at hlast

theorem separated_more {α : Type} {R : Text → α → Prop} {a : α} {as : List α} (h : R t a)
    (hu : Separated R u as) : Separated R (t ++ ',' :: u) (a :: as) :=
  .more .nil h .nil hu

mutual

theorem Value.wider : ∀ {t : Text} {v : Json}, Value t v → Grammar.Value t v
  | _, _, .null => .null
  | _, _, .true => .true
  | _, _, .false => .false
  | _, _, .number hn hfinite => .number hn hfinite
  | _, _, .string hs => .string hs.wider
  | _, _, .emptyArray => .emptyArray .nil
  | _, _, .array hvs => .array (separated_of_values hvs)
  | _, _, .emptyObject => .emptyObject .nil
  | _, _, .object hms => .object (separated_of_members hms)

theorem separated_of_values : ∀ {t : Text} {vs : List Json},
    Joined Value t vs → Separated Grammar.Value t vs
  | _, _, .last hv => separated_last hv.wider
  | _, _, .more hv hvs => separated_more hv.wider (separated_of_values hvs)

theorem separated_of_members : ∀ {t : Text} {ms : List (Text × Json)},
    Joined (Member Value) t ms → Separated (Grammar.Member Grammar.Value) t ms
  | _, _, .last (.parts hs hv) => separated_last (.parts hs.wider .nil .nil hv.wider)
  | _, _, .more (.parts hs hv) hms =>
    separated_more (.parts hs.wider .nil .nil hv.wider) (separated_of_members hms)

end

end Wider

section Control

def NoControl (t : Text) : Prop :=
  ∀ c ∈ t, 0x20 ≤ c.toNat

instance : Decidable (NoControl t) :=
  List.decidableBAll (fun c : Char => 0x20 ≤ c.toNat) t

theorem NoControl.cons (hc : 0x20 ≤ c.toNat) (ht : NoControl t) : NoControl (c :: t) :=
  List.forall_mem_cons.2 ⟨hc, ht⟩

theorem NoControl.append (ht : NoControl t) (hu : NoControl u) : NoControl (t ++ u) :=
  List.forall_mem_append.2 ⟨ht, hu⟩

theorem NoControl.enclosed {o : Char} (ho : 0x20 ≤ o.toNat) (ht : NoControl t)
    (hc : 0x20 ≤ c.toNat) : NoControl (o :: (t ++ [c])) :=
  .cons ho (ht.append (List.forall_mem_singleton.2 hc))

theorem space_le_digitChar :
    ∀ n < 16, 0x20 ≤ (Nat.digitChar n).toNat ∧ 0x20 ≤ (Nat.digitChar n).toUpper.toNat := by
  decide

theorem space_le_of_hexDigit {n : Nat} (h : HexDigit c n) : 0x20 ≤ c.toNat := by
  rcases h.2 with rfl | rfl
  · exact (space_le_digitChar n h.1).1
  · exact (space_le_digitChar n h.1).2

theorem noControl_of_hexUnit {n : Nat} (h : HexUnit u n) : NoControl u := by
  cases h with
  | digits ha hb hc hd =>
    simp only [NoControl, List.forall_mem_cons, space_le_of_hexDigit ha, space_le_of_hexDigit hb,
      space_le_of_hexDigit hc, space_le_of_hexDigit hd]
    simp

theorem space_le_of_shortEscape :
    ∀ p ∈ shortEscapes, 0x20 ≤ p.1.toNat := by
  decide

theorem Spelling.noControl (h : Spelling u c) : NoControl u := by
  cases h with
  | unescaped hc => exact List.forall_mem_singleton.2 hc
  | short he =>
    exact .cons (by decide) (List.forall_mem_singleton.2 (space_le_of_shortEscape _ he))
  | unit hu => exact .cons (by decide) (.cons (by decide) (noControl_of_hexUnit hu))
  | pair _ hu hw =>
    have hlow := NoControl.cons (c := '\\') (by decide)
      (.cons (c := 'u') (by decide) (noControl_of_hexUnit hw))
    exact .cons (by decide) (.cons (by decide) ((noControl_of_hexUnit hu).append hlow))

theorem Spellings.noControl (h : Spellings w s) : NoControl w := by
  induction h with
  | nil => exact List.forall_mem_nil _
  | cons hc _ ih => exact hc.noControl.append ih

theorem Quote.noControl (h : Quote t s) : NoControl t := by
  cases h with
  | marks hw => exact .enclosed (by decide) hw.noControl (by decide)

theorem space_le_of_isNumeralChar (h : Numeral.isNumeralChar c = true) : 0x20 ≤ c.toNat := by
  rw [Numeral.isNumeralChar, Bool.or_eq_true] at h
  rcases h with h | h
  · have hzero : '0'.toNat ≤ c.toNat := by
      simp only [Char.isDigit, Bool.and_eq_true, decide_eq_true_eq] at h
      exact h.1
    exact Nat.le_trans (by decide) hzero
  · simp only [List.contains_cons, List.contains_nil, Bool.or_eq_true, beq_iff_eq] at h
    rcases h with rfl | rfl | rfl | rfl | rfl | h
    all_goals first | decide | cases h

mutual

theorem Value.noControl : ∀ {t : Text} {v : Json}, Value t v → NoControl t
  | _, _, .null => by decide
  | _, _, .true => by decide
  | _, _, .false => by decide
  | _, _, .number hn _ => fun c hc => space_le_of_isNumeralChar (Numeral.isRun_number hn c hc)
  | _, _, .string hs => hs.noControl
  | _, _, .emptyArray => by decide
  | _, _, .array hvs => .enclosed (by decide) (noControl_of_values hvs) (by decide)
  | _, _, .emptyObject => by decide
  | _, _, .object hms => .enclosed (by decide) (noControl_of_members hms) (by decide)

theorem noControl_of_values : ∀ {t : Text} {vs : List Json}, Joined Value t vs → NoControl t
  | _, _, .last hv => hv.noControl
  | _, _, .more hv hvs => hv.noControl.append (.cons (by decide) (noControl_of_values hvs))

theorem noControl_of_members : ∀ {t : Text} {ms : List (Text × Json)},
    Joined (Member Value) t ms → NoControl t
  | _, _, .last (.parts hs hv) => hs.noControl.append (.cons (by decide) hv.noControl)
  | _, _, .more (.parts hs hv) hms =>
    (hs.noControl.append (.cons (by decide) hv.noControl)).append
      (.cons (by decide) (noControl_of_members hms))

end

end Control

section Written

theorem spelling_spell (c : Char) : Spelling (Quoted.spell c) c := by
  unfold Quoted.spell
  split
  · exact .short (by simp [shortEscapes])
  · exact .short (by simp [shortEscapes])
  · exact .short (by simp [shortEscapes])
  · exact .short (by simp [shortEscapes])
  · exact .short (by simp [shortEscapes])
  · exact .short (by simp [shortEscapes])
  · exact .short (by simp [shortEscapes])
  · next hquote hslash _ _ _ _ _ =>
    split
    · next hlt =>
      have hdigit (n : Nat) : HexDigit (Quoted.hexDigit n) (n % 16) :=
        ⟨Nat.mod_lt n (by decide), .inl rfl⟩
      have hzero : HexDigit '0' 0 := ⟨by decide, .inl rfl⟩
      have hcode : 0x1000 * 0 + 0x100 * 0 + 0x10 * (c.toNat / 16 % 16) + c.toNat % 16 =
          c.toNat := by omega
      have hunit := HexUnit.digits hzero hzero (hdigit (c.toNat / 16)) (hdigit c.toNat)
      rw [hcode] at hunit
      exact .unit hunit
    · next hge => exact .unescaped (Nat.le_of_not_lt hge) hquote hslash

theorem quote_write (s : Text) : Quote (Quoted.write s) s := by
  refine .marks ?_
  induction s with
  | nil => exact .nil
  | cons c s ih =>
    rw [List.flatMap_cons]
    exact .cons (spelling_spell c) ih

theorem value_writeNumber (x : Binary64) : Value (writeNumber x) (norm (number x)) := by
  rw [writeNumber, norm]
  split
  · next hx =>
    obtain ⟨n, hn, hread⟩ := exists_number_toText hx
    rw [← hread] at hx
    have hvalue := Value.number hn hx
    rwa [hread] at hvalue
  · exact .null

mutual

theorem value_write : ∀ v : Json, Value (write v) (norm v)
  | null => .null
  | bool Bool.true => .true
  | bool Bool.false => .false
  | number x => value_writeNumber x
  | string s => .string (quote_write s)
  | array [] => .emptyArray
  | array (v :: vs) => by
    obtain ⟨t, ht, h⟩ := joined_writeItems vs (value_write v)
    rw [write, ht, norm, normItems]
    exact .array h
  | object [] => .emptyObject
  | object ((name, v) :: ms) => by
    obtain ⟨t, ht, h⟩ := joined_writeMembers ms (.parts (quote_write name) (value_write v))
    rw [List.append_assoc, List.cons_append] at ht
    rw [write, ht, norm, normMembers]
    exact .object h

theorem joined_writeItems : ∀ (vs : List Json) {u : Text} {w : Json}, Value u w →
    ∃ t, u ++ writeItems vs = t ++ [']'] ∧ Joined Value t (w :: normItems vs)
  | [], u, _, h => ⟨u, rfl, .last h⟩
  | v :: vs, u, w, h => by
    obtain ⟨t, ht, hmore⟩ := joined_writeItems vs (value_write v)
    refine ⟨u ++ ',' :: t, ?_, .more h hmore⟩
    rw [writeItems, ht, List.append_assoc, List.cons_append]

theorem joined_writeMembers : ∀ (ms : List (Text × Json)) {u : Text} {m : Text × Json},
    Member Value u m →
      ∃ t, u ++ writeMembers ms = t ++ ['}'] ∧ Joined (Member Value) t (m :: normMembers ms)
  | [], u, _, h => ⟨u, rfl, .last h⟩
  | (name, v) :: ms, u, m, h => by
    obtain ⟨t, ht, hmore⟩ := joined_writeMembers ms (.parts (quote_write name) (value_write v))
    rw [List.append_assoc, List.cons_append] at ht
    refine ⟨u ++ ',' :: t, ?_, .more h hmore⟩
    rw [writeMembers, ht, List.append_assoc, List.cons_append]

end

theorem written_in_strict_grammar (v : Json) :
    Value (write v) (norm v) ∧ ∀ c ∈ write v, 0x20 ≤ c.toNat :=
  ⟨value_write v, (value_write v).noControl⟩

end Written

end TextScan.Json.Strict
