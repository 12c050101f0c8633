import RequestRules.Number.Numeral
import RequestRules.Text.Blank
import RequestRules.Text.Digit
import RequestRules.Text.Quoted

/-!
# Whole numbers

A whole number is written with a sign, decimal digits of any script, and single `_` between digits; blank characters may
surround it.  If the text is not all ASCII, white space and digits of other scripts are turned into ASCII first.
-/

namespace RequestRules

namespace Whole

inductive Failure
  | invalid (t : Text)
  | tooLong (digits : Nat)
  deriving DecidableEq, Repr

/-- The sentence that is reported; a quoted text is cut after 200 characters. -/
def Failure.message : Failure → Text
  | invalid t => .of "invalid literal for int() with base 10: " ++ t.quoted.take 200
  | tooLong n => Numeral.tooLong n

/-- ASCII for white space and digits of other scripts; any other foreign character ends the text with a mark. -/
def toAscii : Text → Text
  | [] => []
  | c :: t =>
    if c.toNat < 127 then c :: toAscii t
    else if isBlank c then ' ' :: toAscii t
    else match asciiDigit? c with
      | some d => d :: toAscii t
      | none => ['?']

def plain (t : Text) : Text :=
  if t.all fun c => c.toNat < 128 then t else toAscii t

/-- No `_` at either end, and no two together. -/
def separated (run : Text) : Bool :=
  run.head? ≠ some (.char '_') ∧ run.getLast? ≠ some (.char '_') ∧ !(run.zip run.tail).contains ('_', '_')

def read (t : Text) : Except Failure Int :=
  let s := (plain t).dropWhile isAsciiBlank
  let (negative, s) := match s with
    | '-' :: s => (true, s)
    | '+' :: s => (false, s)
    | s => (false, s)
  let (run, rest) := s.span fun c => c.isDigit || c = .char '_'
  let digits := run.filter (· ≠ .char '_')
  if !separated run then .error (.invalid t)
  else if Numeral.limit < digits.length then .error (.tooLong digits.length)
  else if digits.isEmpty ∨ !rest.all isAsciiBlank then .error (.invalid t)
  else .ok (if negative then -(Numeral.value digits : Int) else Numeral.value digits)

end Whole

end RequestRules
