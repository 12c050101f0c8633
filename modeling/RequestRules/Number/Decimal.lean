import RequestRules.Number.Numeral
import RequestRules.Text.Digit

/-!
# Decimal numbers

A `Decimal` is a sign, a coefficient and a power of ten, so that `1.50` and `1.5` are two writings of one number.
`Decimal.render` keeps the writing, `Decimal.SameNumber` compares the numbers, and `Decimal.read` takes any decimal
digits, passes over `_`, and refuses exponents outside `Decimal.maxAdjusted` and `Decimal.minExponent`.
-/

namespace RequestRules

structure Decimal where
  negative : Bool
  coefficient : Nat
  exponent : Int
  deriving DecidableEq, Repr

namespace Decimal

/-! ## Equality of numbers -/

/-- Coefficient and exponent with the trailing zeros of the coefficient moved into the exponent. -/
def strip (coefficient : Nat) (exponent : Int) : Nat × Int :=
  if h : coefficient ≠ 0 ∧ coefficient % 10 = 0 then strip (coefficient / 10) (exponent + 1)
  else (coefficient, exponent)
termination_by coefficient
decreasing_by omega

/-- The shortest writing of a number; zero has one. -/
def normal (d : Decimal) : Decimal :=
  if d.coefficient = 0 then ⟨false, 0, 0⟩
  else let (c, e) := strip d.coefficient d.exponent; ⟨d.negative, c, e⟩

def SameNumber (a b : Decimal) : Prop := a.normal = b.normal

instance (a b : Decimal) : Decidable (SameNumber a b) := inferInstanceAs (Decidable (a.normal = b.normal))

/-- The power of ten of the leading digit. -/
def adjusted (d : Decimal) : Int := d.exponent + (Numeral.ofNat d.coefficient).length - 1

/-- At least zero; a negative zero counts. -/
def isNonnegative (d : Decimal) : Bool := !d.negative || d.coefficient = 0

/-- At most one hundred; only the leading digits are looked at. -/
def isAtMostHundred (d : Decimal) : Bool :=
  d.negative || d.coefficient = 0 || d.adjusted < 2 ||
    (d.adjusted = 2 && (strip d.coefficient d.exponent).1 = 1)

/-! ## Writing -/

def renderExponent (e : Int) : Text :=
  'E' :: (if e < 0 then Numeral.ofInt e else '+' :: Numeral.ofInt e)

/-- Digits with a point behind the first `n`. -/
def pointed (n : Nat) (ds : Text) : Text :=
  if ds.length ≤ n then ds else ds.take n ++ .char '.' :: ds.drop n

/-- The number without its sign: in full down to the sixth place behind the point, else with an exponent. -/
def renderMagnitude (coefficient : Nat) (exponent : Int) : Text :=
  let ds := Numeral.ofNat coefficient
  let left : Int := exponent + ds.length
  if exponent ≤ 0 ∧ -6 < left then
    if 0 < left then pointed left.toNat ds
    else '0' :: '.' :: (List.replicate (-left).toNat (.char '0') ++ ds)
  else pointed 1 ds ++ (if left = 1 then [] else renderExponent (left - 1))

def render (d : Decimal) : Text :=
  (if d.negative then [.char '-'] else []) ++ renderMagnitude d.coefficient d.exponent

/-! ## Reading -/

def maxAdjusted : Int := 999999999999999999

def minExponent : Int := -1999999999999999997

/-- Within the range of exponents; the leading digit of zero is zero. -/
def inRange (d : Decimal) : Bool :=
  d.adjusted ≤ maxAdjusted ∧ minExponent ≤ d.exponent

/-- The characters that a number is read from: no `_`, and digits of any script as ASCII digits. -/
def plain (t : Text) : Text :=
  (t.filter (· ≠ .char '_')).map fun c => (asciiDigit? c).getD c

def takeSign : Text → Bool × Text
  | '-' :: t => (true, t)
  | '+' :: t => (false, t)
  | t => (false, t)

/-- The exponent behind a coefficient: nothing, or `e`, a sign and digits. -/
def readExponent? : Text → Option Int
  | [] => some 0
  | e :: t =>
    if e = 'e' ∨ e = 'E' then
      let (negative, ds) := takeSign t
      if !ds.isEmpty ∧ ds.all CodePoint.isDigit then
        some (if negative then -(Numeral.value ds : Int) else Numeral.value ds)
      else none
    else none

def readMagnitude? (t : Text) : Option (Nat × Int) :=
  let (whole, t) := t.span CodePoint.isDigit
  let (fraction, t) := match t with
    | '.' :: t => t.span CodePoint.isDigit
    | t => ([], t)
  if whole.isEmpty ∧ fraction.isEmpty then none
  else (readExponent? t).map fun e => (Numeral.value (whole ++ fraction), e - fraction.length)

/-- Infinity, or no number, perhaps with a payload of digits. -/
def isSpecial (t : Text) : Bool :=
  let t : Text := t.map CodePoint.toLower
  t = .of "inf" || t = .of "infinity" ||
    (match t.strip? (.of "nan"), t.strip? (.of "snan") with
      | some r, _ => r.all CodePoint.isDigit
      | _, some r => r.all CodePoint.isDigit
      | _, _ => false)

inductive Reading
  | number (d : Decimal)
  /-- infinite, or not a number -/
  | special
  | invalid
  deriving DecidableEq, Repr

def read (t : Text) : Reading :=
  let (negative, t) := takeSign (plain t)
  match readMagnitude? t with
  | some (c, e) => let d := ⟨negative, c, e⟩; if d.inRange then .number d else .invalid
  | none => if isSpecial t then .special else .invalid

end Decimal

end RequestRules
