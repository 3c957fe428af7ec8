import TextScan.CharClass.Blank
import TextScan.CharClass.Alphabetic
import TextScan.CharClass.Numeric
import TextScan.CharClass.Uppercase

namespace TextScan

inductive CharClass where
  | blank | alphabetic | numeric | alphanumeric | uppercase | digit | hexDigit
deriving DecidableEq, Repr

namespace CharClass

def isAlphanumeric (c : Char) : Bool :=
  isAlphabetic c || isNumeric c

def isHexDigit (c : Char) : Bool :=
  c.isDigit || ('a' ≤ c && c ≤ 'f') || ('A' ≤ c && c ≤ 'F')

def holds : CharClass → Char → Bool
  | blank => isBlank
  | alphabetic => isAlphabetic
  | numeric => isNumeric
  | alphanumeric => isAlphanumeric
  | uppercase => isUppercase
  | digit => Char.isDigit
  | hexDigit => isHexDigit

theorem isAlphanumeric_of_isAlphabetic {c : Char} (h : isAlphabetic c = true) :
    isAlphanumeric c = true := by
  simp [isAlphanumeric, h]

end CharClass

end TextScan
