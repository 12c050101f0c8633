import RequestRules.Text

/-!
# Hexadecimal digits

The value of a run of digits of base sixteen, with letters of either case.
-/

namespace RequestRules

/-- The value of a digit or a letter, in any base. -/
def alphaDigit? (c : CodePoint) : Option Nat :=
  if c.isDigit then some (c.toNat - 0x30)
  else if c.isLower then some (c.toNat - 0x61 + 10)
  else if c.isUpper then some (c.toNat - 0x41 + 10)
  else none

def digitOf? (base : Nat) (c : CodePoint) : Option Nat := (alphaDigit? c).filter (· < base)

def hexValue? (t : Text) : Option Nat :=
  t.foldl (fun n c => do return 16 * (← n) + (← digitOf? 16 c)) (some 0)

end RequestRules
