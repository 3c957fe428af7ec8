import TextScan.Text.Basic
import TextScan.Number.Shortest

namespace TextScan

namespace Decimal

def toText (d : Decimal) : Text :=
  match d.exponent with
  | .ofNat e => Nat.toDigits 10 (d.digits * 10 ^ e)
  | .negSucc e =>
    let places := e + 1
    let digits := Nat.toDigits 10 d.digits
    let padded := List.replicate (places + 1 - digits.length) '0' ++ digits
    let whole := padded.length - places
    padded.take whole ++ '.' :: padded.drop whole

end Decimal

namespace Binary64

def toText (x : Binary64) : Text :=
  let magnitude := if x.code = 0 then ['0'] else (shortest x.code).toText
  if x.negative then '-' :: magnitude else magnitude

end Binary64

end TextScan
