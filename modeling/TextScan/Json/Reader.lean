import TextScan.Json.Basic
import TextScan.Json.Numeral
import TextScan.Json.Quoted
import TextScan.Json.Written
import TextScan.Parse
import TextScan.Repetition
/-!
Values inside a value are read by the reader of one level less, and a text has no more levels than
characters.
-/

namespace TextScan.Json

def skipBlank (t : Text) : Text :=
  t.dropWhile CharClass.isBlank

section Sequences

variable {α : Type}

def afterComma (item : Text → Reading (α × Text)) (t : Text) : Reading (Option α × Text) :=
  match skipBlank t with
  | ',' :: rest => (item rest).map fun (a, rest) => (some a, rest)
  | rest => .ok (none, rest)

def skipMark (mark : Char) (missing : Requirement) (t : Text) : Reading Text :=
  match skipBlank t with
  | [] => fail missing []
  | c :: rest => if c = mark then .ok rest else fail missing (c :: rest)

def sequence (close : Char) (missing : Requirement) (item : Text → Reading (α × Text)) (t : Text) :
    Reading (List α × Text) :=
  match skipMark close missing t with
  | .ok rest => .ok ([], rest)
  | .error _ => do
    let (first, t) ← item t
    let (more, t) ← Repetition.repeated (afterComma item) t
    let t ← skipMark close missing t
    .ok (first :: more, t)

end Sequences

def member (inner : Text → Reading (Json × Text)) (t : Text) : Reading ((Text × Json) × Text) :=
  match skipBlank t with
  | '"' :: rest => do
    let (name, t) ← Quoted.body rest
    let t ← skipMark ':' .colon t
    let (v, t) ← inner (skipBlank t)
    .ok ((name, v), t)
  | t => fail .memberName t

def element (inner : Text → Reading (Json × Text)) (t : Text) : Reading (Json × Text) :=
  inner (skipBlank t)

def word? (t : Text) : Option (Json × Text) :=
  match Text.dropPrefix? nullWord t with
  | some rest => some (null, rest)
  | none =>
    match Text.dropPrefix? trueWord t with
    | some rest => some (bool true, rest)
    | none => (Text.dropPrefix? falseWord t).map fun rest => (bool false, rest)

def valueWith (inner : Text → Reading (Json × Text)) (t : Text) : Reading (Json × Text) :=
  match t with
  | '{' :: rest =>
    (sequence '}' .commaOrBrace (member inner) rest).map fun (ms, rest) => (object ms, rest)
  | '[' :: rest =>
    (sequence ']' .commaOrBracket (element inner) rest).map fun (vs, rest) => (array vs, rest)
  | '"' :: rest => (Quoted.body rest).map fun (s, rest) => (string s, rest)
  | t =>
    match word? t with
    | some (v, rest) => .ok (v, rest)
    | none => (Numeral.read t).map fun (x, rest) => (number x, rest)

def valueUpTo : Nat → Text → Reading (Json × Text)
  | 0 => valueWith (fail .value)
  | levels + 1 => valueWith (valueUpTo levels)

def value (t : Text) : Reading (Json × Text) :=
  valueUpTo t.length t

def document (t : Text) : Reading (Json × Text) := do
  let (v, rest) ← value (skipBlank t)
  match skipBlank rest with
  | [] => .ok (v, [])
  | rest => fail .endOfInput rest

def parse (text : Text) : Traced (Except Report Json) :=
  TextScan.parse (fun t : Text => Run.ofExcept (document t)) text

end TextScan.Json
