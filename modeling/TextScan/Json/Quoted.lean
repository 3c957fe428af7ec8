import TextScan.CharClass.Basic
import TextScan.Text.Prefix
import TextScan.Json.Requirement

namespace TextScan.Json

namespace Quoted

def hexValue (c : Char) : Nat :=
  if c.isDigit then c.toNat - 48
  else if 'a' ≤ c then c.toNat - 87
  else c.toNat - 55

def hexDigit (n : Nat) : Char :=
  Nat.digitChar (n % 16)

def unit (t : Text) : Reading (Nat × Text) :=
  match t with
  | a :: b :: c :: d :: rest =>
    if [a, b, c, d].all CharClass.isHexDigit then
      .ok ([a, b, c, d].foldl (fun n x => 16 * n + hexValue x) 0, rest)
    else fail .fourHexDigits t
  | _ => fail .fourHexDigits t

def isHighSurrogate (n : Nat) : Bool :=
  0xD800 ≤ n && n < 0xDC00

def isLowSurrogate (n : Nat) : Bool :=
  0xDC00 ≤ n && n < 0xE000

def ofSurrogates (high low : Nat) : Char :=
  Char.ofNat (0x10000 + (high - 0xD800) * 0x400 + (low - 0xDC00))

def codeEscape (t : Text) : Reading (Char × Text) := do
  let (high, rest) ← unit t
  if isHighSurrogate high then
    match Text.dropPrefix? ['\\', 'u'] rest with
    | none => fail .lowSurrogate rest
    | some second =>
      let (low, rest) ← unit second
      if isLowSurrogate low then .ok (ofSurrogates high low, rest)
      else fail .lowSurrogate second
  else if isLowSurrogate high then fail .scalar t
  else .ok (Char.ofNat high, rest)

def shortEscape? : Char → Option Char
  | '"' => some '"'
  | '\\' => some '\\'
  | '/' => some '/'
  | 'b' => some '\x08'
  | 'f' => some '\x0c'
  | 'n' => some '\n'
  | 'r' => some '\r'
  | 't' => some '\t'
  | _ => none

def escape (t : Text) : Reading (Char × Text) :=
  match t with
  | [] => fail .escape t
  | 'u' :: rest => codeEscape rest
  | c :: rest =>
    match shortEscape? c with
    | some x => .ok (x, rest)
    | none => fail .escape t

theorem unit_shorter {t rest : Text} {n : Nat} (h : unit t = .ok (n, rest)) :
    rest.length < t.length := by
  unfold unit at h
  split at h
  · split at h
    · obtain ⟨-, rfl⟩ := Prod.mk.inj (Except.ok.inj h)
      simp only [List.length_cons]
      omega
    · simp [fail] at h
  · simp [fail] at h

theorem codeEscape_shorter {t rest : Text} {x : Char} (h : codeEscape t = .ok (x, rest)) :
    rest.length < t.length := by
  unfold codeEscape at h
  cases hu : unit t with
  | error e => simp [hu, bind, Except.bind] at h
  | ok r =>
    obtain ⟨high, behind⟩ := r
    have hlt := unit_shorter hu
    simp only [hu, bind, Except.bind] at h
    split at h
    · split at h
      · simp [fail] at h
      · next second hs =>
        rw [Text.dropPrefix?_eq_some_iff] at hs
        cases hv : unit second with
        | error e => simp [hv] at h
        | ok r =>
          obtain ⟨low, last⟩ := r
          have hlow := unit_shorter hv
          simp only [hv] at h
          split at h
          · obtain ⟨-, rfl⟩ := Prod.mk.inj (Except.ok.inj h)
            subst hs
            simp only [List.length_append, List.length_cons, List.length_nil] at hlt
            omega
          · simp [fail] at h
    · split at h
      · simp [fail] at h
      · obtain ⟨-, rfl⟩ := Prod.mk.inj (Except.ok.inj h)
        exact hlt

theorem escape_shorter {t rest : Text} {x : Char} (h : escape t = .ok (x, rest)) :
    rest.length < t.length := by
  unfold escape at h
  split at h
  · simp [fail] at h
  · next behind =>
    have hlt := codeEscape_shorter h
    simp only [List.length_cons]
    omega
  · split at h
    · obtain ⟨-, rfl⟩ := Prod.mk.inj (Except.ok.inj h)
      simp
    · simp [fail] at h

def body (t : Text) : Reading (Text × Text) :=
  match t with
  | [] => fail .closeQuote t
  | '"' :: rest => .ok ([], rest)
  | '\\' :: rest =>
    match h : escape rest with
    | .error fault => .error fault
    | .ok (x, behind) =>
      have := escape_shorter h
      (body behind).map fun (s, last) => (x :: s, last)
  | x :: rest => (body rest).map fun (s, last) => (x :: s, last)
termination_by t.length

def read (t : Text) : Reading (Text × Text) :=
  match t with
  | '"' :: rest => body rest
  | _ => fail .openQuote t

def spell (c : Char) : Text :=
  match c with
  | '"' => ['\\', '"']
  | '\\' => ['\\', '\\']
  | '\n' => ['\\', 'n']
  | '\r' => ['\\', 'r']
  | '\t' => ['\\', 't']
  | '\x08' => ['\\', 'b']
  | '\x0c' => ['\\', 'f']
  | c =>
    if c.toNat < 0x20 then
      ['\\', 'u', '0', '0', hexDigit (c.toNat / 16), hexDigit c.toNat]
    else [c]

def write (s : Text) : Text :=
  '"' :: (s.flatMap spell ++ ['"'])

end Quoted

end TextScan.Json
