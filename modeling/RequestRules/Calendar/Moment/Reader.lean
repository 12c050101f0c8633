import RequestRules.Calendar.Moment

/-!
# Reading moments

A moment is written as a date, any one character, and a time of day, which may be missing together with that character:

* dates: `YYYY-MM-DD`, `YYYYMMDD`, `YYYY-Www`, `YYYY-Www-D`, `YYYYWww`, `YYYYWwwD`;
* times: `HH`, `HH:MM`, `HH:MM:SS` with or without the colons, and a fraction behind `.` or `,` of which six digits count;
* a distance from UTC: `Z`, or a sign and a time.

A NUL ends a time early.  No surrogate is accepted but as the character between date and time.
-/

namespace RequestRules

namespace Moment

inductive Failure
  | malformed (t : Text)
  | calendar (e : CalendarError)
  deriving DecidableEq, Repr

def Failure.message : Failure → Text
  | malformed t => .of "Invalid isoformat string: " ++ t.quoted
  | calendar e => e.message

/-- The number that the first `n` characters denote, all ASCII digits. -/
def digits? (n : Nat) (t : Text) : Option (Nat × Text) :=
  let ds := t.take n
  if ds.length = n ∧ ds.all CodePoint.isDigit then some (Numeral.value ds, t.drop n) else none

/-! ## Dates -/

/-- The date of a day of an ISO week; the weeks of year 0 lie outside of all months. -/
def ofWeek? (year week day : Nat) : Option (Nat × Nat × Nat) :=
  if week < 1 ∨ Calendar.isoWeeks year < week ∨ day < 1 ∨ 7 < day then none
  else if year = 0 then some (1, 0, 1)
  else
    let ordinal := Calendar.firstMonday year + (((week - 1) * 7 + (day - 1) : Nat) : Int)
    some (Calendar.ofDayIndex (ordinal - 1).toNat)

/-- The day of the week behind `YYYY-Www`.  Before two digits a hyphen begins the time. -/
def hyphenedWeekday? : Text → Option (Nat × Text)
  | ['-'] => none
  | '-' :: d :: x :: t =>
    if x.isDigit then some (1, '-' :: d :: x :: t)
    else (digits? 1 [d]).map fun (n, _) => (n, x :: t)
  | '-' :: t => digits? 1 t
  | t => some (1, t)

/-- The day of the week behind `YYYYWww`: the next digit, unless it stands before an even number of digits. -/
def plainWeekday? (t : Text) : Option (Nat × Text) :=
  let run := (t.takeWhile CodePoint.isDigit).length
  if run = 1 ∨ (run ≠ 0 ∧ run % 2 = 0) then digits? 1 t else some (1, t)

def readDate? (t : Text) : Option ((Nat × Nat × Nat) × Text) := do
  let (year, t) ← digits? 4 t
  match t with
  | '-' :: 'W' :: t =>
    let (week, t) ← digits? 2 t
    let (day, t) ← hyphenedWeekday? t
    return (← ofWeek? year week day, t)
  | 'W' :: t =>
    let (week, t) ← digits? 2 t
    let (day, t) ← plainWeekday? t
    return (← ofWeek? year week day, t)
  | '-' :: t =>
    let (month, t) ← digits? 2 t
    let t ← t.strip? ['-']
    let (day, t) ← digits? 2 t
    return ((year, month, day), t)
  | t =>
    let (month, t) ← digits? 2 t
    let (day, t) ← digits? 2 t
    return ((year, month, day), t)

/-! ## Times -/

structure Clock where
  hour : Nat := 0
  minute : Nat := 0
  second : Nat := 0
  micro : Nat := 0
  /-- something is left over behind the time -/
  leftover : Bool := false
  deriving DecidableEq, Repr

inductive AfterField
  | done (leftover : Bool)
  | field (t : Text)
  | fraction (t : Text)
  | malformed
  deriving DecidableEq, Repr

/-- One more character of ASCII is left over if it is no NUL; two more, or one beyond ASCII, begin a field or a
fraction. -/
def afterField (colons : Bool) : Text → AfterField
  | [] => .done false
  | [c] => if c.toNat < 0x80 then .done (c ≠ '\x00') else .malformed
  | c :: t =>
    if colons ∧ c = ':' then .field t
    else if c = '.' ∨ c = ',' then .fraction t
    else if colons then .malformed
    else .field (c :: t)

/-- Up to six digits as microseconds; further digits do not count. -/
def withFraction? (clock : Clock) (t : Text) : Option Clock :=
  let n := min 6 t.length
  (digits? n t).map fun (value, t) =>
    let rest := t.dropWhile CodePoint.isDigit
    { clock with micro := value * Nat.pow 10 (6 - n), leftover := rest.head?.any (· ≠ .char '\x00') }

def withSecond? (colons : Bool) (clock : Clock) (t : Text) : Option Clock := do
  let (second, t) ← digits? 2 t
  let clock := { clock with second }
  match afterField colons t with
  | .done leftover => return { clock with leftover }
  | .field t | .fraction t => withFraction? clock t
  | .malformed => none

def withMinute? (colons : Bool) (clock : Clock) (t : Text) : Option Clock := do
  let (minute, t) ← digits? 2 t
  let clock := { clock with minute }
  match afterField colons t with
  | .done leftover => return { clock with leftover }
  | .field t => withSecond? colons clock t
  | .fraction t => withFraction? clock t
  | .malformed => none

/-- The time in `t`; a colon behind the hours asks for colons throughout. -/
def readClock? (t : Text) : Option Clock := do
  let (hour, t) ← digits? 2 t
  let clock : Clock := { hour }
  let colons := t.head? = some (.char ':')
  match afterField colons t with
  | .done leftover => return { clock with leftover }
  | .field t => withMinute? colons clock t
  | .fraction t => withFraction? clock t
  | .malformed => none

/-- The distance from UTC that a clock shows; without whole seconds it is none. -/
def Clock.distance (negative : Bool) (c : Clock) : Int :=
  let seconds := c.hour * 3600 + c.minute * 60 + c.second
  let micros : Int := (seconds * 1000000 + c.micro : Nat)
  if seconds = 0 then 0 else if negative then -micros else micros

def readOffset? : Text → Option Int
  | 'Z' :: t => if t.head?.any (· ≠ .char '\x00') then none else some 0
  | sign :: t => do
    let c ← readClock? t
    if c.leftover then none else some (c.distance (sign = '-'))
  | [] => none

/-- A time and its distance from UTC, which begins with the first `+`, `-` or `Z`. -/
def readTime? (t : Text) : Option (Clock × Option Int) := do
  let (time, zone) := t.span fun c => c ≠ .char '+' ∧ c ≠ .char '-' ∧ c ≠ .char 'Z'
  let clock ← readClock? time
  if zone.isEmpty then if clock.leftover then none else some (clock, none)
  else return (clock, some (← readOffset? zone))

/-- The date, the time behind the character after it, and the distance from UTC. -/
def readParts? (t : Text) : Option ((Nat × Nat × Nat) × Clock × Option Int) := do
  let (date, rest) ← readDate? t
  match rest with
  | [] => return (date, {}, none)
  | _ :: time => return (date, ← readTime? time)

/-- The first surrogate at a place where a date can end becomes a `T`. -/
def plainMark (t : Text) : Text :=
  match [7, 8, 10].find? fun i => t[i]?.any CodePoint.isSurrogate with
  | some i => t.set i 'T'
  | none => t

def read (t : Text) : Except Failure Moment :=
  match if (plainMark t).any CodePoint.isSurrogate then none else readParts? (plainMark t) with
  | none => .error (.malformed t)
  | some ((year, month, day), clock, offset) =>
    (make year month day clock.hour clock.minute clock.second clock.micro offset).mapError .calendar

end Moment

end RequestRules
