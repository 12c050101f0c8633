import RequestRules.Text

/-!
# Bytes

Four characters of base 64 are three bytes.  Other characters are passed over; `=` fills up the last group.
-/

namespace RequestRules.Yaml.Binary

def value? (c : CodePoint) : Option Nat :=
  if c.isUpper then some (c.toNat - 'A'.toNat)
  else if c.isLower then some (c.toNat - 'a'.toNat + 26)
  else if c.isDigit then some (c.toNat - '0'.toNat + 52)
  else if c = '+' then some 62
  else if c = '/' then some 63
  else none

/-- The bytes of the characters behind a part of a group: its length, the bits left over from it, and the number of `=`
since its last character. -/
def decode? : (filled rest fillers : Nat) → Text → Option (List UInt8)
  | filled, _, _, [] => if filled = 0 then some [] else none
  | filled, rest, fillers, c :: t =>
    if c = '=' then
      if 2 ≤ filled then
        if 4 ≤ filled + fillers + 1 then some [] else decode? filled rest (fillers + 1) t
      else decode? filled rest fillers t
    else match value? c with
      | none => decode? filled rest fillers t
      | some v =>
        match filled with
        | 0 => decode? 1 v 0 t
        | 1 => (decode? 2 (v % 16) 0 t).map (UInt8.ofNat (rest * 4 + v / 16) :: ·)
        | 2 => (decode? 3 (v % 4) 0 t).map (UInt8.ofNat (rest * 16 + v / 4) :: ·)
        | _ => (decode? 0 0 0 t).map (UInt8.ofNat (rest * 64 + v) :: ·)

def read? (t : Text) : Option (List UInt8) :=
  if t.all fun c => c.toNat < 128 then decode? 0 0 0 t else none

end RequestRules.Yaml.Binary
