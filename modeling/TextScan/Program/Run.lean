import TextScan.Program.Basic
import TextScan.Cursor.Policy
import TextScan.Repetition

namespace TextScan.Program

variable {σ ω : Type}

/-- What a single character counts as when there is none. -/
def absent : Char := '\x00'

inductive Reaction (σ ω : Type) where
  | next (value : Value ω) (frame : Frame σ)
  | stop (cursor : σ)

def Frame.next (f : Frame σ) (value : Value ω) (matched : Bool) (c : σ) : Reaction σ ω :=
  .next value { f with cursor := c, matched := matched }

def Frame.nextFlag (f : Frame σ) (b : Bool) (c : σ) : Reaction σ ω :=
  f.next (.flag b) b c

/-- A character that was taken or seen. The absent one is no match, not even where it stands in
the text. -/
def Frame.nextChar (f : Frame σ) (x : Option Char) (c : σ) : Reaction σ ω :=
  f.next (.char (x.getD absent)) (x.getD absent != absent) c

def Frame.nextText (f : Frame σ) (taken : Text) (c : σ) : Reaction σ ω :=
  f.next (.text taken) (!taken.isEmpty) c

def Frame.nextFault (f : Frame σ) (fault : Option Fault) (c : σ) : Reaction σ ω :=
  f.next (.fault fault) fault.isSome c

section Cursors

variable [Cursor σ]

def Frame.nextSkip (f : Frame σ) (c : σ) : Reaction σ ω :=
  f.next .nothing (decide (Cursor.remaining c < Cursor.remaining f.cursor)) c

def Condition.holds (f : Frame σ) : Condition → Bool
  | always b => b
  | matched => f.matched
  | unmatched => !f.matched
  | atEnd => Cursor.isAtEnd f.cursor
  | notAtEnd => !Cursor.isAtEnd f.cursor
  | test p => p (Cursor.rest f.cursor) f.matched

end Cursors

variable [Policy σ] [DecidableEq σ]

def Step.react (f : Frame σ) : Step ω → Run (Reaction σ ω)
  | takeOne p =>
    let (x, c) := Cursor.takeOne? p f.cursor
    pure (f.nextChar x c)
  | takeWhile p =>
    let (taken, c) := Cursor.takeWhile p f.cursor
    pure (f.nextText taken c)
  | takeBounded p max =>
    let (taken, c) := Cursor.takeBounded p max f.cursor
    pure (f.nextText taken c)
  | peek count =>
    match Cursor.peek? count f.cursor with
    | some seen => pure (f.next (.text seen) true f.cursor)
    | none => pure (f.next .nothing false f.cursor)
  | peekOne => pure (f.nextChar (Cursor.peekOne? f.cursor) f.cursor)
  | skipWhile p => pure (f.nextSkip (Cursor.skipWhile p f.cursor))
  | skipUntil p => pure (f.nextSkip (Cursor.skipUntil p f.cursor))
  | skipOneIf p => pure (f.nextSkip (Cursor.skipOneIf p f.cursor))
  | skipOne => pure (f.nextSkip (Cursor.skipOne f.cursor))
  | skipChar x =>
    let (found, c) := Cursor.skipChar x f.cursor
    pure (f.nextFlag found c)
  | skipLiteral literal =>
    let (found, c) := Cursor.skipLiteral literal f.cursor
    pure (f.nextFlag found c)
  | startsWith literal => pure (f.nextFlag (Cursor.startsWith literal f.cursor) f.cursor)
  | nextIs p => pure (f.nextFlag (Cursor.nextIs p f.cursor) f.cursor)
  | isAtEnd => pure (f.nextFlag (Cursor.isAtEnd f.cursor) f.cursor)
  | display => pure (f.next (.text (Cursor.rest f.cursor)) true f.cursor)
  | yield value => pure (f.next (.given value) true f.cursor)
  | fork name =>
    pure (.next .nothing { f with matched := true, saved := (name, f.cursor) :: f.saved })
  | restore name => pure (f.next .nothing true ((f.saved.lookup name).getD f.cursor))
  | same name => pure (f.nextFlag (decide (f.saved.lookup name = some f.cursor)) f.cursor)
  | advance bytes =>
    match Cursor.advance? bytes f.cursor with
    | some c => pure (f.next .nothing true c)
    | none => pure (f.next (.refused bytes) false f.cursor)
  | stopUnless condition =>
    pure (if condition.holds f then f.next .nothing true f.cursor else .stop f.cursor)
  | raiseUnless condition expected =>
    if condition.holds f then pure (f.next .nothing true f.cursor)
    else throw (Fault.before (Cursor.rest f.cursor) expected)
  | require condition expected => do
    let c ← Cursor.require (condition.holds f) expected f.cursor
    pure (f.next .nothing true c)
  | requireChar x => do
    let c ← Cursor.requireChar x f.cursor
    pure (f.next .nothing true c)
  | requireLiteral literal expected => do
    let c ← Cursor.requireLiteral literal expected f.cursor
    pure (f.next .nothing true c)
  | requireLazily condition expected => do
    let c ← Cursor.require (condition.holds f) expected f.cursor
    pure (f.next (.count (if condition.holds f then 0 else 1)) true c)
  | fault expected =>
    pure (f.next (.fault (some (Fault.before (Cursor.rest f.cursor) expected))) true f.cursor)
  | hasFault => pure (f.nextFlag (Policy.fault? f.cursor).isSome f.cursor)
  | keptFault => pure (f.nextFault (Policy.fault? f.cursor) f.cursor)

structure Ending (σ ω : Type) where
  values : List (Value ω)
  cursor : σ
  stopped : Bool

def Ending.toMatch (e : Ending σ ω) : Option (List (Value ω)) × σ :=
  (if e.stopped then none else some e.values, e.cursor)

def attempt (strict : Bool) (item : σ → Run (Ending σ ω)) (c : σ) :
    Run (Option (List (Value ω)) × σ) :=
  if strict then do
    let e ← item c
    pure e.toMatch
  else
    tryCatch (do let e ← item c; pure e.toMatch) fun _ => pure (none, c)

def repeatItem (f : Frame σ) (strict : Bool) (item : σ → Run (Ending σ ω)) (limit : Nat) :
    Run (Reaction σ ω) := do
  let (items, c) ← Repetition.collect (attempt strict item) limit f.cursor
  pure (f.next (.items items) (!items.isEmpty) c)

def run : Program ω → Frame σ → Run (Ending σ ω)
  | done, f => pure ⟨[], f.cursor, false⟩
  | step s next, f => do
    match ← s.react f with
    | .next value f =>
      let e ← run next f
      pure { e with values := value :: e.values }
    | .stop c => pure ⟨[], c, true⟩
  | repetition strict item limit next, f => do
    match ← repeatItem f strict (fun c => run item (Frame.start c)) limit with
    | .next value f =>
      let e ← run next f
      pure { e with values := value :: e.values }
    | .stop c => pure ⟨[], c, true⟩

inductive State (σ ω : Type) where
  | next (value : Value ω) (matched : Bool) (cursor : σ)
  | raised (fault : Fault) (cursor : σ)
  | stopped (cursor : σ)

def observeStep (f : Frame σ) (r : Run (Reaction σ ω))
    (follow : Frame σ → Traced (List (State σ ω))) : Traced (List (State σ ω)) := do
  match ← r.run with
  | .ok (.next value f) =>
    let states ← follow f
    pure (.next value f.matched f.cursor :: states)
  | .ok (.stop c) => pure [.stopped c]
  | .error fault =>
    let states ← follow { f with matched := false }
    pure (.raised fault f.cursor :: states)

def observe : Program ω → Frame σ → Traced (List (State σ ω))
  | done, _ => pure []
  | step s next, f => observeStep f (s.react f) (observe next)
  | repetition strict item limit next, f =>
    observeStep f (repeatItem f strict (fun c => run item (Frame.start c)) limit) (observe next)

/-- Faults go to the cursor that the program began at. -/
def asRoot (p : Program ω) (c : σ) : Run (List (Value ω) × σ) :=
  tryCatch (do let e ← run p (Frame.start c); pure (e.values, e.cursor))
    fun fault => do
      let c ← Policy.absorb fault c
      pure ([], c)

end TextScan.Program
