import TextScan.Report.Basic

namespace TextScan

namespace Excerpt

inductive Entry where
  | line (number : Nat) (content : Text)
  | marked (number : Nat) (content : Text)
  | pointer (offset : Nat)
deriving DecidableEq, Repr

def lineLabel (number : Nat) : String :=
  s!"    {number} | "

def markedLabel (number : Nat) : String :=
  s!"  > {number} | "

def Entry.render : Entry → String
  | line number content => lineLabel number ++ String.ofList content
  | marked number content => markedLabel number ++ String.ofList content
  | pointer offset => String.ofList (List.replicate offset ' ') ++ "^--- here"

/-- The pointer starts behind the label and the characters before the one at the location. -/
def entriesOf (spot : Location) (number : Nat) (content : Text) : List Entry :=
  if number = spot.line then
    [.marked number content, .pointer ((markedLabel number).length + spot.column - 1)]
  else [.line number content]

def isNear (spot : Location) (number : Nat) : Bool :=
  number ≤ spot.line + 2 && spot.line ≤ number + 2

def ofText (text : Text) (spot : Location) : List Entry :=
  ((text.lines.zipIdx 1).filter fun (_, number) => isNear spot number).flatMap
    fun (line, number) => entriesOf spot number line.chomp

end Excerpt

namespace Report

def excerpt (r : Report) : List Excerpt.Entry :=
  match r.source, r.location with
  | some text, some l => Excerpt.ofText text l
  | _, _ => []

end Report

end TextScan
