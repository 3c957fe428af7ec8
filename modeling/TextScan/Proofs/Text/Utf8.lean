import Mathlib.Data.List.DropRight
import TextScan.Text.Basic

namespace TextScan.Text

variable {t u : Text}

def bytes (t : Text) : List UInt8 :=
  t.flatMap String.utf8EncodeChar

def newlineByte : UInt8 := 10

@[simp] theorem bytes_nil : bytes [] = [] := rfl

@[simp] theorem bytes_cons (c : Char) (t : Text) :
    bytes (c :: t) = String.utf8EncodeChar c ++ bytes t :=
  List.flatMap_cons

@[simp] theorem bytes_append (t u : Text) : bytes (t ++ u) = bytes t ++ bytes u :=
  List.flatMap_append

@[simp] theorem length_bytes (t : Text) : (bytes t).length = t.size := by
  induction t with
  | nil => rfl
  | cons c t ih => simp [ih]

-- The first bytes of one character are never all the bytes of another.
theorem bytes_prefix_iff : bytes u <+: bytes t ↔ u <+: t := by
  constructor
  · rintro ⟨more, hmore⟩
    refine List.isPrefix_of_utf8Encode_append_eq_utf8Encode more.toByteArray ?_
    have happend := congrArg List.toByteArray hmore
    rwa [List.toByteArray_append] at happend
  · rintro ⟨v, rfl⟩
    exact ⟨bytes v, (bytes_append u v).symm⟩

theorem utf8EncodeChar_newline : String.utf8EncodeChar '\n' = [newlineByte] := by
  decide

theorem mod_eq_of_newlineByte {n : Nat} (h : newlineByte = UInt8.ofNat n) : n % 256 = 10 := by
  have hnat := congrArg UInt8.toNat h
  rw [UInt8.toNat_ofNat'] at hnat
  exact hnat.symm

theorem newlineByte_ne_ofNat {n : Nat} (hlow : 128 ≤ n) (hhigh : n < 256) :
    newlineByte ≠ UInt8.ofNat n := by
  intro h
  have hcode := mod_eq_of_newlineByte h
  omega

theorem eq_newline_of_newlineByte_mem {c : Char} (h : newlineByte ∈ String.utf8EncodeChar c) :
    c = '\n' := by
  revert h
  fun_cases String.utf8EncodeChar c with
  | case1 v hone =>
    intro h
    have hcode := mod_eq_of_newlineByte (List.mem_singleton.1 h)
    apply Char.ext
    apply UInt32.toNat.inj
    change v = 10
    omega
  -- Every byte of a character that has more than one is above 127.
  | case2 v =>
    intro h
    simp only [List.mem_cons, List.not_mem_nil, or_false] at h
    rcases h with h | h <;>
      exact absurd h (newlineByte_ne_ofNat (by omega) (by omega))
  | case3 v =>
    intro h
    simp only [List.mem_cons, List.not_mem_nil, or_false] at h
    rcases h with h | h | h <;>
      exact absurd h (newlineByte_ne_ofNat (by omega) (by omega))
  | case4 v =>
    intro h
    simp only [List.mem_cons, List.not_mem_nil, or_false] at h
    rcases h with h | h | h | h <;>
      exact absurd h (newlineByte_ne_ofNat (by omega) (by omega))

theorem newlineByte_mem_iff {c : Char} : newlineByte ∈ String.utf8EncodeChar c ↔ c = '\n' := by
  refine ⟨eq_newline_of_newlineByte_mem, ?_⟩
  rintro rfl
  rw [utf8EncodeChar_newline]
  exact List.mem_singleton_self _

theorem newlineByte_mem_bytes_iff : newlineByte ∈ bytes t ↔ '\n' ∈ t := by
  simp [bytes, newlineByte_mem_iff]

theorem count_bytes (t : Text) : (bytes t).count newlineByte = t.count '\n' := by
  induction t with
  | nil => rfl
  | cons c t ih =>
    rw [bytes_cons, List.count_append, ih]
    by_cases hc : c = '\n'
    · subst hc
      rw [utf8EncodeChar_newline, List.count_cons_self, List.count_cons_self, List.count_nil,
        Nat.add_comm]
    · rw [List.count_eq_zero.2 (mt eq_newline_of_newlineByte_mem hc), List.count_cons_of_ne hc,
        Nat.zero_add]

end TextScan.Text
