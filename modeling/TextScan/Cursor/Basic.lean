import TextScan.Text.Prefix

namespace TextScan

class Cursor (σ : Type) where
  rest : σ → Text
  withRest : σ → Text → σ

class LawfulCursor (σ : Type) [Cursor σ] : Prop where
  rest_withRest (c : σ) (t : Text) : Cursor.rest (Cursor.withRest c t) = t
  withRest_rest (c : σ) : Cursor.withRest c (Cursor.rest c) = c
  withRest_withRest (c : σ) (t u : Text) :
    Cursor.withRest (Cursor.withRest c t) u = Cursor.withRest c u

attribute [simp] LawfulCursor.rest_withRest LawfulCursor.withRest_rest
  LawfulCursor.withRest_withRest

namespace Cursor

variable {σ : Type} [Cursor σ]

def remaining (c : σ) : Nat :=
  (rest c).size

def isAtEnd (c : σ) : Bool :=
  (rest c).isEmpty

def startsWith (literal : Text) (c : σ) : Bool :=
  literal.isPrefixOf (rest c)

def nextIs (p : Char → Bool) (c : σ) : Bool :=
  (rest c).head?.any p

def peekOne? (c : σ) : Option Char :=
  (rest c).head?

def peek? (count : Nat) (c : σ) : Option Text :=
  (rest c).take? count

def advance? (n : Nat) (c : σ) : Option σ :=
  ((rest c).dropBytes? n).map (withRest c)

def takeOne? (p : Char → Bool) (c : σ) : Option Char × σ :=
  match rest c with
  | x :: t => if p x then (some x, withRest c t) else (none, c)
  | [] => (none, c)

def takeWhile (p : Char → Bool) (c : σ) : Text × σ :=
  ((rest c).takeWhile p, withRest c ((rest c).dropWhile p))

def takeBounded (p : Char → Bool) (max : Nat) (c : σ) : Text × σ :=
  let (taken, left) := (rest c).splitWhile p max
  (taken, withRest c left)

def skipWhile (p : Char → Bool) (c : σ) : σ :=
  withRest c ((rest c).dropWhile p)

def skipUntil (p : Char → Bool) (c : σ) : σ :=
  skipWhile (fun x => !p x) c

def skipOneIf (p : Char → Bool) (c : σ) : σ :=
  (takeOne? p c).2

def skipOne (c : σ) : σ :=
  skipOneIf (fun _ => true) c

def skipChar (x : Char) (c : σ) : Bool × σ :=
  let (found, c) := takeOne? (· == x) c
  (found.isSome, c)

def skipLiteral (literal : Text) (c : σ) : Bool × σ :=
  match Text.dropPrefix? literal (rest c) with
  | some t => (true, withRest c t)
  | none => (false, c)

variable [LawfulCursor σ]

theorem rest_takeWhile (p : Char → Bool) (c : σ) :
    (takeWhile p c).1 ++ rest (takeWhile p c).2 = rest c := by
  simp [takeWhile]

theorem rest_takeBounded (p : Char → Bool) (max : Nat) (c : σ) :
    (takeBounded p max c).1 ++ rest (takeBounded p max c).2 = rest c := by
  simpa [takeBounded] using Text.splitWhile_append p max (rest c)

theorem rest_skipLiteral {literal : Text} {c d : σ} (h : skipLiteral literal c = (true, d)) :
    rest c = literal ++ rest d := by
  unfold skipLiteral at h
  split at h
  · next t ht =>
    obtain rfl : withRest c t = d := by simpa using h
    simpa using Text.dropPrefix?_eq_some_iff.1 ht
  · simp at h

end Cursor

end TextScan
