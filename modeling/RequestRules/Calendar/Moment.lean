import RequestRules.Calendar.Date
import RequestRules.Text.Quoted

/-!
# Moments

A moment is a date with a time of day, perhaps with its distance from UTC.  Moments with a distance are the same when
they are the same instant, moments without one when they show the same date and time; the two sorts never agree.
-/

namespace RequestRules

structure Moment where
  date : Date
  hour : Nat
  minute : Nat
  second : Nat
  micro : Nat
  offset : Option Int
  deriving DecidableEq, Repr

namespace Moment

def microsPerSecond : Int := 1000000
def microsPerDay : Int := 86400 * microsPerSecond

/-- The microseconds that the clock shows since the day before year 1. -/
def wall (m : Moment) : Int :=
  (m.date.ordinal : Int) * microsPerDay +
    ((m.hour * 3600 + m.minute * 60 + m.second : Nat) : Int) * microsPerSecond + m.micro

def Same (a b : Moment) : Prop :=
  match a.offset, b.offset with
  | none, none => a.wall = b.wall
  | some x, some y => a.wall - x = b.wall - y
  | _, _ => False

instance (a b : Moment) : Decidable (Same a b) := by
  unfold Same; split <;> infer_instance

/-! ## Making -/

def checkOffset (micros : Int) : Except CalendarError Unit :=
  if -microsPerDay < micros ∧ micros < microsPerDay then .ok () else .error (.offset micros)

/-- A moment that exists; of several faults the first in the order distance, date, time is reported. -/
def make (year month day hour minute second micro : Nat) (offset : Option Int) : Except CalendarError Moment := do
  if let some o := offset then checkOffset o
  let date ← Date.make year month day
  if 23 < hour then .error .hour
  else if 59 < minute then .error .minute
  else if 59 < second then .error .second
  else .ok ⟨date, hour, minute, second, micro, offset⟩

/-! ## Writing -/

/-- `:SS.ffffff`, each part only if it is needed. -/
def renderOffset (micros : Int) : Text :=
  let n := micros.natAbs
  let seconds := n / 1000000
  let micro := n % 1000000
  let s := seconds % 60
  (if micros < 0 then '-' else '+') ::
    (Numeral.padded 2 (seconds / 3600) ++ .char ':' :: Numeral.padded 2 (seconds / 60 % 60) ++
      (if s = 0 ∧ micro = 0 then [] else .char ':' :: Numeral.padded 2 s) ++
      (if micro = 0 then [] else .char '.' :: Numeral.padded 6 micro))

/-- `YYYY-MM-DDTHH:MM:SS`, with microseconds and distance from UTC if there are any. -/
def render (m : Moment) : Text :=
  m.date.render ++ .char 'T' ::
    (Numeral.padded 2 m.hour ++ .char ':' :: (Numeral.padded 2 m.minute ++ .char ':' :: Numeral.padded 2 m.second) ++
      (if m.micro = 0 then [] else .char '.' :: Numeral.padded 6 m.micro) ++
      (match m.offset with | none => [] | some o => renderOffset o))

end Moment

/-! ## Messages -/

namespace CalendarError

/-- `name=n` for the parts that are not zero. -/
def durationParts (micros : Int) : List Text :=
  let days := micros / Moment.microsPerDay
  let rest := micros % Moment.microsPerDay
  let part (name : String) (n : Int) : List Text :=
    if n = 0 then [] else [.of name ++ .char '=' :: Numeral.ofInt n]
  part "days" days ++ part "seconds" (rest / 1000000) ++ part "microseconds" (rest % 1000000)

def duration (micros : Int) : Text :=
  let parts := durationParts micros
  .of "datetime.timedelta(" ++ (if parts.isEmpty then .of "0" else Text.join (.of ", ") parts) ++ [.char ')']

def message : CalendarError → Text
  | year n => .of "year " ++ Numeral.ofInt n ++ .of " is out of range"
  | month => .of "month must be in 1..12"
  | day => .of "day is out of range for month"
  | hour => .of "hour must be in 0..23"
  | minute => .of "minute must be in 0..59"
  | second => .of "second must be in 0..59"
  | offset n =>
    .of "offset must be a timedelta strictly between -timedelta(hours=24) and timedelta(hours=24), not " ++
      duration n ++ [.char '.']

end CalendarError

end RequestRules
