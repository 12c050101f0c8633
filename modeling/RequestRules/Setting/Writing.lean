import RequestRules.Number.Numeral
import RequestRules.Setting

/-!
# Settings that cannot be written

A setting can be written if it has an end, and no integer in it has too many digits.
-/

namespace RequestRules.Setting

inductive Unwritable
  | endless
  | longInt
  deriving DecidableEq, Repr

def Unwritable.message? : Unwritable → Option Text
  | endless => none
  | longInt => some (Numeral.overLimit [])

mutual
def unwritable? : Setting → Option Unwritable
  | endless => some .endless
  | int n => if Numeral.isInLimit n then none else some .longInt
  | list xs | set xs => unwritableItem? xs
  | pair a b => unwritable? a <|> unwritable? b
  | map es => unwritableEntry? es
  | null | bool _ | real _ | noNumber | text _ | bytes _ | date _ | moment _ => none
def unwritableItem? : List Setting → Option Unwritable
  | [] => none
  | x :: xs => unwritable? x <|> unwritableItem? xs
def unwritableEntry? : List (Setting × Setting) → Option Unwritable
  | [] => none
  | (k, v) :: es => unwritable? k <|> unwritable? v <|> unwritableEntry? es
end

end RequestRules.Setting
