import TextScan.Cursor.Policy
import TextScan.Report.Basic

namespace TextScan

variable {σ α : Type}

def reject (text : Text) (fault : Fault) : Traced (Except Report α) := do
  Traced.log (.rejected fault text.size)
  pure (.error ((Report.ofFault fault).withSource text))

def parse [Policy σ] (root : σ → Run (α × σ)) (text : Text) : Traced (Except Report α) := do
  match ← (root (Policy.start text)).run with
  | .error fault => reject text fault
  | .ok (value, last) =>
    match Policy.fault? last with
    | some fault => reject text fault
    | none =>
      Traced.log (.accepted (text.size - Cursor.remaining last) text.size)
      pure (.ok value)

end TextScan
