import RequestRules.Setting

/-!
# Times

`YYYY-MM-DD`, perhaps with a time of day behind `T` or white space, and with `Z` or a distance from UTC.  Of the fraction
of a second six digits count.
-/

namespace RequestRules.Yaml

structure Clock where
  hour : Nat
  minute : Nat
  second : Nat
  micro : Nat
  /-- the distance from UTC in minutes -/
  offset : Option Int
  deriving Repr

structure Time where
  year : Nat
  month : Nat
  day : Nat
  clock : Option Clock
  deriving Repr

namespace Time

/-- A number of `least` to `most` digits, and the rest. -/
def number? (least most : Nat) (t : Text) : Option (Nat × Text) :=
  let ds := (t.take most).takeWhile CodePoint.isDigit
  if ds.length < least then none else some (Numeral.value ds, t.drop ds.length)

def behind? (c : CodePoint) : Text → Option Text
  | [] => none
  | a :: t => if a = c then some t else none

/-- The millionths of a second behind a point, and the rest. -/
def micros (t : Text) : Nat × Text :=
  match t with
  | '.' :: t =>
    let ds := (t.takeWhile CodePoint.isDigit).take 6
    (Numeral.value (ds ++ List.replicate (6 - ds.length) (.char '0')), t.dropWhile CodePoint.isDigit)
  | t => (0, t)

def isBlankChar (c : CodePoint) : Bool := c = ' ' || c = '\t'

def zone? (t : Text) : Option Int :=
  match t with
  | ['Z'] => some 0
  | s :: t => do
    if s ≠ '+' ∧ s ≠ '-' then none
    let (hours, rest) ← number? 1 2 t
    let minutes ← if rest.isEmpty then some 0 else do
      let (n, rest) ← number? 2 2 (← behind? ':' rest)
      if rest.isEmpty then some n else none
    let n : Int := (hours * 60 + minutes : Nat)
    return if s = '-' then -n else n
  | [] => none

def clock? (t : Text) : Option Clock := do
  let (hour, t) ← number? 1 2 t
  let (minute, t) ← number? 2 2 (← behind? ':' t)
  let (second, t) ← number? 2 2 (← behind? ':' t)
  let (micro, t) := micros t
  if t.isEmpty then return ⟨hour, minute, second, micro, none⟩
  else return ⟨hour, minute, second, micro, ← zone? (t.dropWhile isBlankChar)⟩

def read? (t : Text) : Option Time := do
  let (year, t) ← number? 4 4 t
  let (month, t) ← number? 1 2 (← behind? '-' t)
  let (day, t) ← number? 1 2 (← behind? '-' t)
  match t with
  | [] => return ⟨year, month, day, none⟩
  | c :: rest =>
    if c = 'T' ∨ c = 't' then return ⟨year, month, day, ← clock? rest⟩
    else if isBlankChar c then return ⟨year, month, day, ← clock? (rest.dropWhile isBlankChar)⟩
    else none

def toSetting (s : Time) : Except CalendarError Setting :=
  match s.clock with
  | none => (Date.make s.year s.month s.day).map .date
  | some c =>
    (Moment.make s.year s.month s.day c.hour c.minute c.second c.micro
      (c.offset.map fun n => n * (60 * Moment.microsPerSecond))).map .moment

end Time

end RequestRules.Yaml
