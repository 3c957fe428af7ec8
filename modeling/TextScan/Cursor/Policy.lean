import TextScan.Cursor.Basic
import TextScan.Trace
/-!
What becomes of a requirement that does not hold. A bare text has nowhere to keep a fault, so the
fault ends the run. A collecting cursor keeps the first fault in its slot and the run goes on.
-/

namespace TextScan

class Policy (σ : Type) extends Cursor σ where
  start : Text → σ
  require : Bool → String → σ → Run σ
  /-- Takes over a fault that was raised elsewhere. -/
  absorb : Fault → σ → Run σ
  fault? : σ → Option Fault

namespace Cursor

variable {σ : Type} [Policy σ]

def require (holds : Bool) (expected : String) (c : σ) : Run σ :=
  Policy.require holds expected c

def requireLiteral (literal : Text) (expected : String) (c : σ) : Run σ :=
  let (found, c) := skipLiteral literal c
  require found expected c

def expectedChar (x : Char) : String :=
  "Expected '" ++ x.toString ++ "'"

def requireChar (x : Char) (c : σ) : Run σ :=
  let (found, c) := skipChar x c
  require found (expectedChar x) c

end Cursor

instance : Policy Text where
  rest c := c
  withRest _ t := t
  start t := t
  require holds expected c := if holds then pure c else throw (Fault.before c expected)
  absorb fault _ := throw fault
  fault? _ := none

instance : LawfulCursor Text where
  rest_withRest _ _ := rfl
  withRest_rest _ := rfl
  withRest_withRest _ _ _ := rfl

structure Collecting where
  rest : Text
  slot : Option Fault
deriving DecidableEq, Repr

namespace Collecting

def record (fault : Fault) (c : Collecting) : Run Collecting :=
  match c.slot with
  | none => do
    Run.log (.recorded fault)
    pure { c with slot := some fault }
  | some first => do
    Run.log (.suppressed fault first)
    pure c

instance : Policy Collecting where
  rest c := c.rest
  withRest c t := { c with rest := t }
  start t := ⟨t, none⟩
  require holds expected c :=
    if holds then pure c else record (Fault.before c.rest expected) c
  absorb fault c := record (Fault.before c.rest fault.expected) c
  fault? c := c.slot

instance : LawfulCursor Collecting where
  rest_withRest _ _ := rfl
  withRest_rest _ := rfl
  withRest_withRest _ _ _ := rfl

end Collecting

end TextScan
