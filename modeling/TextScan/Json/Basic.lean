import TextScan.Number.Binary64
import TextScan.Text.Basic

namespace TextScan

inductive Json where
  | null
  | bool (b : Bool)
  | number (x : Binary64)
  | string (s : Text)
  | array (items : List Json)
  | object (members : List (Text × Json))
deriving Repr

namespace Json

def member? (name : Text) : Json → Option Json
  | object members => members.lookup name
  | _ => none

def array? : Json → Option (List Json)
  | array items => some items
  | _ => none

def item? (i : Nat) (v : Json) : Option Json := do
  let items ← v.array?
  items[i]?

def string? : Json → Option Text
  | string s => some s
  | _ => none

def number? : Json → Option Binary64
  | number x => some x
  | _ => none

mutual

/-- Equality of values, where numbers are compared as numbers: a NaN makes the values that hold
it unequal. -/
def same : Json → Json → Bool
  | null, null => true
  | bool a, bool b => a == b
  | number x, number y => x.same y
  | string s, string t => s == t
  | array xs, array ys => sameItems xs ys
  | object ms, object ns => sameMembers ms ns
  | _, _ => false

def sameItems : List Json → List Json → Bool
  | [], [] => true
  | x :: xs, y :: ys => same x y && sameItems xs ys
  | _, _ => false

def sameMembers : List (Text × Json) → List (Text × Json) → Bool
  | [], [] => true
  | (name, v) :: ms, (other, w) :: ns => name == other && same v w && sameMembers ms ns
  | _, _ => false

end

end Json

end TextScan
