import RequestRules.Number.Binary64.Reader
import RequestRules.Number.Hexadecimal
import RequestRules.Setting
import RequestRules.Text.Lower
import RequestRules.Yaml.Fault

/-!
# Numbers

Whole numbers are written in base 2 behind `0b`, in base 8 behind `0`, in base 16 behind `0x`, in base 10, or in base 60
with `:` between the places; fractions in base 10, or in base 60.  A `_` does not count.
-/

namespace RequestRules.Yaml

/-- The sign, and the rest without any `_`. -/
def splitSign (t : Text) : Except Fault (Bool × Text) :=
  match t.filter (· ≠ .char '_') with
  | [] => .error .emptyNumber
  | '-' :: t => .ok (true, t)
  | '+' :: t => .ok (false, t)
  | t => .ok (false, t)

/-! ## Whole numbers -/

def readTens (t : Text) : Except Fault Int :=
  match Whole.read t with
  | .ok n => .ok n
  | .error (.invalid t) => .error (.notWhole 10 t)
  | .error (.tooLong n) => .error (.tooLong n)

/-- The letter that may follow a zero in front of a number of base 2, 8 or 16. -/
def baseLetter (base : Nat) : CodePoint := if base = 2 then 'b' else if base = 8 then 'o' else 'x'

/-- A whole number of base 2, 8 or 16, perhaps with its zero and letter once more. -/
def readBase (base : Nat) (t : Text) : Except Fault Int :=
  let s := ((Whole.plain t).dropWhile isAsciiBlank).reverse.dropWhile isAsciiBlank
  let (negative, s) := Decimal.takeSign s.reverse
  let s := match s with
    | '0' :: c :: r => if c.toLower = baseLetter base then r else s
    | _ => s
  match s, s.foldl (fun n c => do return base * (← n) + (← digitOf? base c)) (some 0) with
  | _ :: _, some n => .ok (if negative then -n else n)
  | _, _ => .error (.notWhole base t)

def sixties (places : List Int) : Int := places.foldl (fun n d => 60 * n + d) 0

def readUnsigned (t : Text) : Except Fault Int :=
  match t with
  | [] => .error .emptyNumber
  | ['0'] => .ok 0
  | '0' :: 'b' :: ds => readBase 2 ds
  | '0' :: 'x' :: ds => readBase 16 ds
  | '0' :: _ => readBase 8 t
  | _ => if t.contains ':' then do return sixties (← (t.split ':').mapM readTens) else readTens t

def readInt (t : Text) : Except Fault Int := do
  let (negative, s) ← splitSign t
  let n ← readUnsigned s
  return if negative then -n else n

/-! ## Fractions -/

def readTenths (t : Text) : Except Fault Binary64 :=
  match Binary64.read? t with
  | some x => .ok x
  | none => .error (.notReal t)

/-- The value of places of base 60, the last place first.  A base beyond the range is a fault. -/
def sixtieths (sum : Binary64) (base : Nat) : List Binary64 → Except Fault Binary64
  | [] => .ok sum
  | x :: xs =>
    match Binary64.ofNat? base with
    | some b => sixtieths (sum.add (x.mul b)) (base * 60) xs
    | none => .error .hugeBase

/-- A fraction.  Upper and lower case are the same. -/
def readFloat (t : Text) : Except Fault Setting := do
  let (negative, s) ← splitSign (Text.lower (t.filter (· ≠ .char '_')))
  if s = .of ".inf" then return .real (.infinite negative)
  else if s = .of ".nan" then return .noNumber
  else
    let x ←
      if s.contains ':' then do
        let xs ← (s.split ':').mapM readTenths
        sixtieths (.zero false) 1 xs.reverse
      else readTenths s
    return .real (if negative then x.neg else x)

end RequestRules.Yaml
