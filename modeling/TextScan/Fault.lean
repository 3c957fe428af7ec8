import TextScan.Text.Basic

namespace TextScan

structure Fault where
  expected : String
  remaining : Nat
deriving DecidableEq, Repr

namespace Fault

def render (f : Fault) : String :=
  f.expected

def before (t : Text) (expected : String) : Fault :=
  ⟨expected, t.size⟩

end Fault

end TextScan
