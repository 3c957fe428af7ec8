import TextScan.CharClass.Basic
import TextScan.Cursor.Policy
import TextScan.Parse
import TextScan.Repetition
import TextScan.Xml.Basic
import TextScan.Xml.Requirement
/-!
A collecting cursor reads on after a fault, and a bare text stops there. Elements inside an element
are read by the reader of one level less, and a text has no more levels than characters.
-/

namespace TextScan.Xml

variable {σ : Type} [Policy σ]

open Cursor

def skipBlank (c : σ) : σ :=
  skipWhile CharClass.isBlank c

def require (holds : Bool) (r : Requirement) (c : σ) : Run σ :=
  Cursor.require holds r.text c

def name (c : σ) : Run (Text × σ) := do
  let c := skipBlank c
  let c ← require (nextIs CharClass.isAlphabetic c) .name c
  let (name, c) := takeWhile CharClass.isAlphanumeric c
  pure (name, skipBlank c)

def startTag (c : σ) : Run ((Text × Bool) × σ) := do
  let c ← requireChar '<' c
  let (name, c) ← name c
  let (closed, c) := skipLiteral ['/', '>'] c
  let c ← if closed then pure c else requireChar '>' c
  pure ((name, closed), skipBlank c)

def endTag (expected : Text) (c : σ) : Run σ := do
  let (opened, c) := skipLiteral ['<', '/'] c
  let c ← require opened (.endTag expected) c
  let (found, c) ← name c
  let c ← require (found == expected) (.endTag expected) c
  let c ← requireChar '>' c
  pure (skipBlank c)

/-- After a fault, at the end and in front of an end tag there is no item. -/
def item (inner : σ → Run (Element × σ)) (c : σ) : Run (Option (Item Element) × σ) :=
  if (Policy.fault? c).isSome || isAtEnd c || startsWith ['<', '/'] c then pure (none, c)
  else if nextIs (· == '<') c then do
    let (e, c) ← inner c
    pure (some (.element e), c)
  else
    let (t, c) := takeWhile (· != '<') c
    pure (some (.text t), c)

def elementWith (inner : σ → Run (Element × σ)) (c : σ) : Run (Element × σ) := do
  let ((name, closed), c) ← startTag c
  if closed then pure (.empty name, c)
  else
    let (items, c) ← Repetition.repeated (item inner) c
    let c ← endTag name c
    pure (.full name items, c)

def elementUpTo : Nat → σ → Run (Element × σ)
  | 0 => elementWith fun c => pure (.empty [], c)
  | levels + 1 => elementWith (elementUpTo levels)

def element (c : σ) : Run (Element × σ) :=
  elementUpTo (rest c).length c

def document (c : σ) : Run (Element × σ) := do
  let (root, c) ← element (skipBlank c)
  let c := skipBlank c
  let c ← require (isAtEnd c) .endOfDocument c
  pure (root, c)

def parse (text : Text) : Traced (Except Report Element) :=
  TextScan.parse (fun c : Collecting => document c) text

end TextScan.Xml
