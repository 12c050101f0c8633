import RequestRules.Number.Binary64

/-!
# The shortest writing of a number

A number is written with the fewest digits that round back to it, and of those with the nearest.  Powers of ten from
`-4` to `15` are written in full with a point, others with an exponent of at least two digits.
-/

namespace RequestRules

namespace Binary64

/-- Four times the bounds of what rounds to `m · 2 ^ q`, in units of `2 ^ q`; the lower gap is half as wide where the
power of two changes. -/
def bounds (m : Nat) (q : Int) : Nat × Nat :=
  (if m = Nat.pow 2 52 ∧ minPower < q then 4 * m - 1 else 4 * m - 2, 4 * m + 2)

def tenPower (k : Int) : Nat × Nat :=
  if 0 ≤ k then (Nat.pow 10 k.toNat, 1) else (1, Nat.pow 10 (-k).toNat)

/-- A multiple of `2 ^ q / 4` in units of `10 ^ k`, as a fraction. -/
def inTens (n : Nat) (q k : Int) : Nat × Nat :=
  let (a, b) := if 0 ≤ q then (n * Nat.pow 2 q.toNat, 4) else (n, 4 * Nat.pow 2 (-q).toNat)
  let (p, r) := tenPower k
  (a * r, b * p)

/-- The multiple of `10 ^ k` that is nearest to `m · 2 ^ q`, if it rounds back. -/
def onGrid? (m : Nat) (q k : Int) : Option Nat :=
  let (lo, hi) := bounds m q
  let (n, d) := inTens (4 * m) q k
  let (a, b) := inTens lo q k
  let (a', b') := inTens hi q k
  let fits (x : Nat) : Bool :=
    if m % 2 = 0 then a ≤ x * b ∧ x * b' ≤ a' else a < x * b ∧ x * b' < a'
  let below := n / d
  let near := roundDiv n d
  let far := if near = below then below + 1 else below
  if fits near then some near else if fits far then some far else none

def leading (m : Nat) (q : Int) : Int :=
  let atLeast (k : Int) : Bool := let (n, d) := inTens (4 * m) q k; d ≤ n
  let guess : Int := ((m.log2 : Int) + q) * 30103 / 100000
  if atLeast (guess + 1) then guess + 1 else if atLeast guess then guess else guess - 1

/-- The digits without trailing zeros, and the power of ten behind them. -/
def trimmed (c : Nat) (k : Int) : Nat × Int :=
  if h : c ≠ 0 ∧ c % 10 = 0 then trimmed (c / 10) (k + 1) else (c, k)
termination_by c
decreasing_by omega

/-- The shortest decimal of a number other than zero: coefficient and power of ten. -/
def shortest (m : Nat) (q : Int) : Nat × Int :=
  let top := leading m q
  let grids := (List.range 17).map fun i : Nat => top - Int.ofNat i
  match grids.findSome? fun k => (onGrid? m q k).map fun c => (c, k) with
  | some (c, k) => trimmed c k
  | none => (m, q)

structure Layout where
  /-- the least power of ten that is written in full -/
  least : Int
  /-- the greatest power of ten that is written in full -/
  greatest : Int
  exponentWidth : Nat

/-- Powers of ten from `-4` to `15` in full, two digits for other exponents. -/
def layout : Layout := ⟨-4, 15, 2⟩

/-- The written form of `c · 10 ^ k`, with a digit on each side of a point. -/
def renderDecimal (l : Layout) (c : Nat) (k : Int) : Text :=
  let ds := Numeral.ofNat c
  let top : Int := k + ds.length - 1
  if l.least ≤ top ∧ top ≤ l.greatest then
    if top < 0 then '0' :: '.' :: (List.replicate (-top - 1).toNat (.char '0') ++ ds)
    else
      let whole := (top + 1).toNat
      let ds := ds ++ List.replicate (whole + 1 - ds.length) (.char '0')
      ds.take whole ++ .char '.' :: ds.drop whole
  else
    let fraction := ds.drop 1
    ds.take 1 ++ (if fraction.isEmpty then [] else .char '.' :: fraction) ++
      .char 'e' :: (if top < 0 then .char '-' else .char '+') :: Numeral.padded l.exponentWidth top.natAbs

def render : Binary64 → Text
  | finite s m q =>
    (if s then [.char '-'] else []) ++
      (if m = 0 then Text.of "0.0" else let (c, k) := shortest m q; renderDecimal layout c k)
  | infinite s => if s then .of "-inf" else .of "inf"
  | nan => .of "nan"

end Binary64

end RequestRules
