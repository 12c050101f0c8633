import RequestRules.Number.Binary64
import RequestRules.Number.Decimal
import RequestRules.Number.Whole

/-!
# Reading a number of 53 binary digits

A decimal with a sign and an exponent, or a word for infinity or for what is not a number.  Blank characters may surround
it, and digits of other scripts count.
-/

namespace RequestRules.Binary64

def read? (t : Text) : Option Binary64 :=
  let s := ((Whole.plain t).dropWhile isAsciiBlank).reverse.dropWhile isAsciiBlank
  let (negative, m) := Decimal.takeSign s.reverse
  match Decimal.readMagnitude? m with
  | some (c, e) => some (ofDecimal negative c e)
  | none =>
    let w : Text := m.map CodePoint.toLower
    if w = .of "inf" ∨ w = .of "infinity" then some (infinite negative)
    else if w = .of "nan" then some nan
    else none

end RequestRules.Binary64
