import TextScan.Cursor.Basic
/-!
What the failed attempt did to its cursor is given up with the attempt. `collect` bounds the number
of matches, and `repeated` takes the bound from the text: items that consume something at each match
cannot reach it.
-/

namespace TextScan

namespace Repetition

variable {σ α : Type} {m : Type → Type} [Monad m]

def collect (item : σ → m (Option α × σ)) : Nat → σ → m (List α × σ)
  | 0, c => pure ([], c)
  | limit + 1, c => do
    match ← item c with
    | (some a, next) =>
      let (more, last) ← collect item limit next
      pure (a :: more, last)
    | (none, _) => pure ([], c)

def repeated [Cursor σ] (item : σ → m (Option α × σ)) (c : σ) : m (List α × σ) :=
  collect item ((Cursor.rest c).length + 1) c

end Repetition

end TextScan
