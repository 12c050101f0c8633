import RequestRules.Number.Numeral

/-!
# Numbers of 53 binary digits

A finite number is a sign and `m · 2 ^ q` with `m < 2 ^ 53` and `q` from `minPower` to `maxPower`.  `Binary64.round` takes
a fraction to the nearest number, and a tie to an even `m`; the arithmetic rounds exact results.
-/

namespace RequestRules

inductive Binary64
  | finite (negative : Bool) (m : Nat) (q : Int)
  | infinite (negative : Bool)
  | nan
  deriving DecidableEq, Repr

namespace Binary64

def minPower : Int := -1074
def maxPower : Int := 971

def zero (negative : Bool) : Binary64 := finite negative 0 minPower

/-- The natural number nearest to `n / d`; of two the even one. -/
def roundDiv (n d : Nat) : Nat :=
  let k := n / d
  let r := 2 * (n % d)
  if r < d then k else if d < r then k + 1 else if k % 2 = 0 then k else k + 1

/-- Numerator and denominator of `n / d · 2 ^ (-q)`. -/
def scaled (n d : Nat) (q : Int) : Nat × Nat :=
  if 0 ≤ q then (n, d * Nat.pow 2 q.toNat) else (n * Nat.pow 2 (-q).toNat, d)

def round (negative : Bool) (n d : Nat) : Binary64 :=
  if n = 0 then zero negative
  else
    let q : Int := (n.log2 : Int) - d.log2 - 53
    let (a, b) := scaled n d q
    let q := if b * Nat.pow 2 53 ≤ a then q + 1 else q
    let q := max q minPower
    let (a, b) := scaled n d q
    let m := roundDiv a b
    let (m, q) := if m = Nat.pow 2 53 then (Nat.pow 2 52, q + 1) else (m, q)
    if maxPower < q then infinite negative else finite negative m q

/-- The number nearest to `c · 10 ^ e`; far outside the range only the direction counts. -/
def ofDecimal (negative : Bool) (c : Nat) (e : Int) : Binary64 :=
  let adjusted := e + (Numeral.ofNat c).length
  if c = 0 ∨ adjusted < -400 then zero negative
  else if 400 < adjusted then infinite negative
  else if 0 ≤ e then round negative (c * Nat.pow 10 e.toNat) 1
  else round negative c (Nat.pow 10 (-e).toNat)

def neg : Binary64 → Binary64
  | finite s m q => finite (!s) m q
  | infinite s => infinite (!s)
  | nan => nan

/-- The number as a multiple of `2 ^ minPower`, if it is finite. -/
def units? : Binary64 → Option Int
  | finite s m q =>
    let n : Int := (m * Nat.pow 2 (q - minPower).toNat : Nat)
    some (if s then -n else n)
  | _ => none

/-- The number nearest to a natural number, unless that is too large. -/
def ofNat? (n : Nat) : Option Binary64 :=
  match round false n 1 with
  | infinite _ => none
  | x => some x

def isNegative : Binary64 → Bool
  | finite s _ _ | infinite s => s
  | nan => false

/-- The number nearest to a multiple of `2 ^ minPower`. -/
def ofUnits (negativeZero : Bool) (n : Int) : Binary64 :=
  if n = 0 then zero negativeZero else round (n < 0) n.natAbs (Nat.pow 2 (-minPower).toNat)

/-- The rounded sum; opposite infinities have none. -/
def add (x y : Binary64) : Binary64 :=
  match x.units?, y.units? with
  | some a, some b => ofUnits (x.isNegative && y.isNegative) (a + b)
  | some _, none => y
  | none, some _ => x
  | none, none => if x = y then x else nan

/-- The rounded product; zero and infinity have none. -/
def mul (x y : Binary64) : Binary64 :=
  let negative := x.isNegative != y.isNegative
  match x.units?, y.units? with
  | some a, some b => round negative (a.natAbs * b.natAbs) (Nat.pow 2 (2 * (-minPower).toNat))
  | some 0, none | none, some 0 => nan
  | _, _ => if x = nan ∨ y = nan then nan else infinite negative

/-- The numbers are equal; both zeros are, and no number equals one that is not a number. -/
def eq (x y : Binary64) : Bool :=
  match x, y with
  | infinite s, infinite t => s = t
  | _, _ =>
    match x.units?, y.units? with
    | some a, some b => a = b
    | _, _ => false

def eqInt (x : Binary64) (n : Int) : Bool :=
  match x.units? with
  | some a => a = n * Nat.pow 2 (-minPower).toNat
  | none => false

end Binary64

end RequestRules
