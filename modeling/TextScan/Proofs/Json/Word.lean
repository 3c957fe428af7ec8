import TextScan.Proofs.Json.Quoted

namespace TextScan.Json.Word

open Grammar Quoted

variable {a b n : UInt32} {c : Char} {t : Text}

section Arithmetic

def add? (a b : UInt32) : Option UInt32 :=
  if a.toNat + b.toNat < UInt32.size then some (a + b) else none

def sub? (a b : UInt32) : Option UInt32 :=
  if b.toNat ≤ a.toNat then some (a - b) else none

def mul? (a b : UInt32) : Option UInt32 :=
  if a.toNat * b.toNat < UInt32.size then some (a * b) else none

-- No bit may be lost on the left.
def shiftLeft? (a b : UInt32) : Option UInt32 :=
  if b.toNat < 32 ∧ a.toNat * 2 ^ b.toNat < UInt32.size then some (a <<< b) else none

theorem exists_add? (h : a.toNat + b.toNat < UInt32.size) :
    ∃ m, add? a b = some m ∧ m.toNat = a.toNat + b.toNat := by
  refine ⟨a + b, if_pos h, ?_⟩
  rw [UInt32.toNat_add, Nat.mod_eq_of_lt h]

theorem exists_sub? (h : b.toNat ≤ a.toNat) :
    ∃ m, sub? a b = some m ∧ m.toNat = a.toNat - b.toNat :=
  ⟨a - b, if_pos h, UInt32.toNat_sub_of_le _ _ (UInt32.le_iff_toNat_le.2 h)⟩

theorem exists_mul? (h : a.toNat * b.toNat < UInt32.size) :
    ∃ m, mul? a b = some m ∧ m.toNat = a.toNat * b.toNat := by
  refine ⟨a * b, if_pos h, ?_⟩
  rw [UInt32.toNat_mul, Nat.mod_eq_of_lt h]

theorem exists_shiftLeft? (hb : b.toNat < 32) (h : a.toNat * 2 ^ b.toNat < UInt32.size) :
    ∃ m, shiftLeft? a b = some m ∧ m.toNat = a.toNat * 2 ^ b.toNat := by
  refine ⟨a <<< b, if_pos ⟨hb, h⟩, ?_⟩
  rw [UInt32.toNat_shiftLeft, Nat.mod_eq_of_lt hb, Nat.shiftLeft_eq, Nat.mod_eq_of_lt h]

end Arithmetic

section Digits

def digit? (c : Char) : Option UInt32 :=
  if CharClass.isHexDigit c then some (UInt32.ofNat (hexValue c)) else none

def push? (n : UInt32) (c : Char) : Option UInt32 := do
  let shifted ← mul? n 16
  let digit ← digit? c
  add? shifted digit

/-- The word that hexadecimal digits spell, perhaps behind a plus. -/
def ofHex? (t : Text) : Option UInt32 :=
  let digits := if t.head? = some '+' then t.tail else t
  if digits.isEmpty then none else digits.foldlM push? 0

theorem hexValue_lt (h : CharClass.isHexDigit c = true) : hexValue c < 16 :=
  (hexDigit_hexValue h).1

theorem exists_push? (hc : CharClass.isHexDigit c = true) (h : n.toNat * 16 + 16 ≤ UInt32.size) :
    ∃ m, push? n c = some m ∧ m.toNat = 16 * n.toNat + hexValue c := by
  have hlt := hexValue_lt hc
  obtain ⟨shifted, hshifted, hmul⟩ : ∃ m, mul? n 16 = some m ∧ m.toNat = n.toNat * 16 :=
    exists_mul? (Nat.lt_of_lt_of_le (Nat.lt_add_of_pos_right (by decide)) h)
  have hdigit : (UInt32.ofNat (hexValue c)).toNat = hexValue c :=
    UInt32.toNat_ofNat_of_lt' (Nat.lt_trans hlt (by decide))
  obtain ⟨m, hm, hsum⟩ := exists_add? (a := shifted) (b := UInt32.ofNat (hexValue c)) (by omega)
  refine ⟨m, ?_, by omega⟩
  simp only [push?, hshifted, digit?, hc, if_true, Option.bind_eq_bind, Option.bind_some, hm]

theorem exists_foldlM_push? (h : ∀ c ∈ t, CharClass.isHexDigit c = true)
    (hn : (n.toNat + 1) * 16 ^ t.length ≤ UInt32.size) :
    ∃ m, t.foldlM push? n = some m ∧
      m.toNat = t.foldl (fun n x => 16 * n + hexValue x) n.toNat := by
  induction t generalizing n with
  | nil => exact ⟨n, rfl, rfl⟩
  | cons c t ih =>
    obtain ⟨hc, ht⟩ := List.forall_mem_cons.1 h
    have hlt := hexValue_lt hc
    have hpos : 0 < 16 ^ t.length := Nat.pow_pos (by decide)
    rw [List.length_cons, Nat.pow_succ', ← Nat.mul_assoc] at hn
    have hfits : n.toNat * 16 + 16 ≤ UInt32.size := by
      have hle := Nat.le_mul_of_pos_right ((n.toNat + 1) * 16) hpos
      omega
    obtain ⟨m, hm, hvalue⟩ := exists_push? hc hfits
    have hnext : (m.toNat + 1) * 16 ^ t.length ≤ UInt32.size :=
      Nat.le_trans (Nat.mul_le_mul_right _ (by omega)) hn
    obtain ⟨k, hk, hfold⟩ := ih ht hnext
    refine ⟨k, ?_, by rw [hfold, hvalue, List.foldl_cons]⟩
    rw [List.foldlM_cons, hm]
    exact hk

theorem exists_ofHex? (h : ∀ c ∈ t, CharClass.isHexDigit c = true) (hne : t ≠ [])
    (hlength : t.length ≤ 8) :
    ∃ m, ofHex? t = some m ∧ m.toNat = t.foldl (fun n x => 16 * n + hexValue x) 0 := by
  have hplus : t.head? ≠ some '+' := by
    intro hhead
    have hdigit := h '+' (List.mem_of_head? hhead)
    exact absurd hdigit (by decide)
  have hfits : ((0 : UInt32).toNat + 1) * 16 ^ t.length ≤ UInt32.size := by
    have hle : 16 ^ t.length ≤ 16 ^ 8 := Nat.pow_le_pow_right (by decide) hlength
    simpa using hle
  obtain ⟨m, hm, hvalue⟩ := exists_foldlM_push? h hfits
  refine ⟨m, ?_, hvalue⟩
  simp only [ofHex?, if_neg hplus, List.isEmpty_iff, hne, if_false, hm]

end Digits

section Surrogates

def combine? (high low : UInt32) : Option UInt32 := do
  let above ← shiftLeft? (← sub? high 0xD800) 10
  add? (← add? 0x10000 above) (← sub? low 0xDC00)

def char? (n : UInt32) : Option Char :=
  if h : n.isValidChar then some ⟨n, h⟩ else none

theorem exists_combine? (ha : isHighSurrogate a.toNat = true) (hb : isLowSurrogate b.toNat = true) :
    ∃ code, combine? a b = some code ∧
      code.toNat = 0x10000 + (a.toNat - 0xD800) * 0x400 + (b.toNat - 0xDC00) := by
  rw [isHighSurrogate_iff] at ha
  rw [isLowSurrogate_iff] at hb
  obtain ⟨m, hm, hmv⟩ : ∃ m, sub? a 0xD800 = some m ∧ m.toNat = a.toNat - 0xD800 :=
    exists_sub? ha.1
  obtain ⟨above, hs, hsv⟩ : ∃ s, shiftLeft? m 10 = some s ∧ s.toNat = m.toNat * 0x400 :=
    exists_shiftLeft? (b := 10) (by decide) (by change m.toNat * 1024 < 4294967296; omega)
  obtain ⟨base, hbase, hbasev⟩ :
      ∃ s, add? 0x10000 above = some s ∧ s.toNat = 0x10000 + above.toNat :=
    exists_add? (a := 0x10000) (by change 65536 + above.toNat < 4294967296; omega)
  obtain ⟨l, hl, hlv⟩ : ∃ l, sub? b 0xDC00 = some l ∧ l.toNat = b.toNat - 0xDC00 :=
    exists_sub? hb.1
  obtain ⟨code, hcode, hcodev⟩ : ∃ s, add? base l = some s ∧ s.toNat = base.toNat + l.toNat :=
    exists_add? (by change base.toNat + l.toNat < 4294967296; omega)
  refine ⟨code, ?_, by omega⟩
  simp only [combine?, hm, hs, hbase, hl, hcode, Option.bind_eq_bind, Option.bind_some]

theorem char?_eq_some (h : n.toNat < 0xD800 ∨ 0xDFFF < n.toNat ∧ n.toNat < 0x110000) :
    char? n = some (Char.ofNat n.toNat) := by
  have hvalid : n.isValidChar := h
  rw [char?, dif_pos hvalid]
  exact congrArg some (Char.ofNat_toNat ⟨n, hvalid⟩).symm

theorem char?_eq_none (h : isLowSurrogate n.toNat = true) : char? n = none := by
  rw [isLowSurrogate_iff] at h
  refine dif_neg ?_
  rintro (hlt | ⟨hlt, -⟩) <;> omega

end Surrogates

end TextScan.Json.Word
