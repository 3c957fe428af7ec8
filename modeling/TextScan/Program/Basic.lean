import TextScan.CharPred
import TextScan.Fault

namespace TextScan

namespace Program

inductive Condition where
  | always (b : Bool)
  | matched
  | unmatched
  | atEnd
  | notAtEnd
  | test (f : Text → Bool → Bool)

inductive Step (ω : Type) where
  | takeOne (p : CharPred)
  | takeWhile (p : CharPred)
  | takeBounded (p : CharPred) (max : Nat)
  | peek (count : Nat)
  | peekOne
  | skipWhile (p : CharPred)
  | skipUntil (p : CharPred)
  | skipOneIf (p : CharPred)
  | skipOne
  | skipChar (x : Char)
  | skipLiteral (literal : Text)
  | startsWith (literal : Text)
  | nextIs (p : CharPred)
  | isAtEnd
  | display
  | yield (value : ω)
  | fork (name : String)
  | restore (name : String)
  | same (name : String)
  | advance (bytes : Nat)
  | stopUnless (condition : Condition)
  | raiseUnless (condition : Condition) (expected : String)
  | require (condition : Condition) (expected : String)
  | requireChar (x : Char)
  | requireLiteral (literal : Text) (expected : String)
  | requireLazily (condition : Condition) (expected : String)
  | fault (expected : String)
  | hasFault
  | keptFault

inductive Value (ω : Type) where
  | nothing
  | flag (b : Bool)
  | char (c : Char)
  | text (t : Text)
  | count (n : Nat)
  | fault (f : Option Fault)
  | given (value : ω)
  | refused (bytes : Nat)
  | items (values : List (List (Value ω)))

end Program

/-- In a strict repetition a fault of the item is a fault of the repetition, otherwise it is one
more way not to match. -/
inductive Program (ω : Type) where
  | done
  | step (s : Program.Step ω) (next : Program ω)
  | repetition (strict : Bool) (item : Program ω) (limit : Nat) (next : Program ω)

namespace Program

structure Frame (σ : Type) where
  cursor : σ
  matched : Bool
  saved : List (String × σ)

def Frame.start {σ : Type} (c : σ) : Frame σ :=
  ⟨c, true, []⟩

end Program

end TextScan
