import TextScan.Text.Lines
/-!
Columns count characters. Only a position inside a character has no count of characters, and its
column counts bytes.
-/

namespace TextScan

structure Location where
  line : Nat
  column : Nat
deriving DecidableEq, Repr

namespace Location

def render (l : Location) : String :=
  s!"({l.line}, {l.column})"

def columnIn (line : Text) (position : Nat) : Nat :=
  match line.splitAtByte? position with
  | some (before, _) => before.length + 1
  | none => position + 1

/-- A position on a newline belongs to the line that the newline ends. -/
def among : List Text → Nat → Nat → Location
  | [], number, position => ⟨number, position + 1⟩
  | [line], number, position => ⟨number, columnIn line position⟩
  | line :: next :: rest, number, position =>
    if position ≤ line.size then ⟨number, columnIn line position⟩
    else among (next :: rest) (number + 1) (position - line.size - 1)

/-- A point before the start of the text counts as the start. -/
def ofRemaining (text : Text) (remaining : Nat) : Location :=
  among text.lines 1 (text.size - min remaining text.size)

end Location

end TextScan
