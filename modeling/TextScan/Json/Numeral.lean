import TextScan.CharClass.Basic
import TextScan.Number.Decimal
import TextScan.Json.Requirement

namespace TextScan.Json

structure Numeral where
  negative : Bool
  whole : Text
  fraction : Text
  exponentNegative : Bool
  exponent : Text
deriving DecidableEq, Repr

namespace Numeral

def isNumeralChar (c : Char) : Bool :=
  c.isDigit || ['.', 'e', 'E', '+', '-'].contains c

def digits? (t : Text) : Option (Text × Text) :=
  match t.takeWhile Char.isDigit with
  | [] => none
  | ds => some (ds, t.dropWhile Char.isDigit)

def sign : Text → Bool × Text
  | '-' :: rest => (true, rest)
  | t => (false, t)

def whole? : Text → Option (Text × Text)
  | '0' :: rest => some (['0'], rest)
  | t => digits? t

def fraction? : Text → Option (Text × Text)
  | '.' :: rest => digits? rest
  | t => some ([], t)

def exponentSign : Text → Bool × Text
  | '-' :: rest => (true, rest)
  | '+' :: rest => (false, rest)
  | t => (false, t)

def exponent? : Text → Option ((Bool × Text) × Text)
  | c :: t =>
    if c = 'e' ∨ c = 'E' then do
      let (negative, t) := exponentSign t
      let (digits, rest) ← digits? t
      some ((negative, digits), rest)
    else some ((false, []), c :: t)
  | [] => some ((false, []), [])

def ofText? (t : Text) : Option Numeral := do
  let (negative, t) := sign t
  let (whole, t) ← whole? t
  let (fraction, t) ← fraction? t
  let ((exponentNegative, exponent), t) ← exponent? t
  if t.isEmpty then some ⟨negative, whole, fraction, exponentNegative, exponent⟩ else none

/-- The magnitude of an exponent. Once it is at two to the power of sixteen, further digits do
not count. -/
def exponentOf (digits : Text) : Nat :=
  digits.foldl (fun e c => if e < 2 ^ 16 then 10 * e + (c.toNat - 48) else e) 0

def toDecimal (n : Numeral) : Decimal :=
  let e : Int := exponentOf n.exponent
  ⟨Nat.ofDigitChars 10 (n.whole ++ n.fraction) 0,
    (if n.exponentNegative then -e else e) - n.fraction.length⟩

def toBinary (n : Numeral) : Binary64 :=
  n.toDecimal.toBinary n.negative

/-- The shape and the range of a number are faults of the whole run of characters. -/
def read (t : Text) : Reading (Binary64 × Text) :=
  match t.takeWhile isNumeralChar with
  | [] => fail .value t
  | run =>
    match ofText? run with
    | none => fail .numberShape t
    | some n =>
      if n.toBinary.isFinite then .ok (n.toBinary, t.dropWhile isNumeralChar)
      else fail .numberRange t

end Numeral

end TextScan.Json
