import TextScan.Fault

namespace TextScan.Json

inductive Requirement where
  | value
  | numberShape
  | numberRange
  | openQuote
  | closeQuote
  | escape
  | fourHexDigits
  | scalar
  | lowSurrogate
  | memberName
  | colon
  | commaOrBrace
  | commaOrBracket
  | endOfInput
deriving DecidableEq, Repr

def Requirement.text : Requirement → String
  | value => "Expected a JSON value"
  | numberShape => "Malformed JSON number"
  | numberRange => "JSON number out of range"
  | openQuote => "Open quote missing"
  | closeQuote => "Found EOF instead of end quote"
  | escape => "Invalid escape sequence"
  | fourHexDigits => "Expected four hex digits"
  | scalar => "Invalid unicode escape"
  | lowSurrogate => "Expected low surrogate"
  | memberName => "Expected property name"
  | colon => "Expected ':'"
  | commaOrBrace => "Expected ',' or '\x7d'"
  | commaOrBracket => "Expected ',' or ']'"
  | endOfInput => "Expected end of input"

theorem Requirement.text_injective {r m : Requirement} (h : r.text = m.text) : r = m := by
  cases r <;> cases m <;> first | rfl | simp [Requirement.text] at h

abbrev Reading := Except Fault

def fail {α : Type} (r : Requirement) (t : Text) : Reading α :=
  .error (Fault.before t r.text)

end TextScan.Json
