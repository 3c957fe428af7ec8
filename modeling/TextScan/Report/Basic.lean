import TextScan.Fault
import TextScan.Text.Location

namespace TextScan

structure Report where
  fault : Fault
  source : Option Text
  located : Option Location
deriving DecidableEq, Repr

namespace Report

def ofFault (fault : Fault) : Report :=
  ⟨fault, none, none⟩

def withSource (text : Text) (r : Report) : Report :=
  { r with source := some text, located := none }

def isLocated (r : Report) : Bool :=
  r.located.isSome

def location (r : Report) : Option Location :=
  r.source.map fun text => r.located.getD (Location.ofRemaining text r.fault.remaining)

def locate (r : Report) : Report :=
  match r.location with
  | some l => { r with located := some l }
  | none => r

def render (r : Report) : String :=
  match r.location with
  | some l => l.render ++ " " ++ r.fault.expected
  | none => r.fault.expected

end Report

end TextScan
