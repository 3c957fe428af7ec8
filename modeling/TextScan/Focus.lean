namespace TextScan

structure Focus (α : Type) where
  root : α
  current : α

namespace Focus

variable {α : Type}

def start (root : α) : Focus α :=
  ⟨root, root⟩

def toRoot (f : Focus α) : Focus α :=
  start f.root

def move (f : Focus α) (step : α → Option α) : Focus α :=
  { f with current := (step f.current).getD f.current }

end Focus

end TextScan
