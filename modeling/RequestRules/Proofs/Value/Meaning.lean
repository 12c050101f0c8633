import RequestRules.Proofs.Calendar.Date
import RequestRules.Proofs.Number.Rational
import RequestRules.Proofs.Value

/-!
# What values denote

`Value.meaning` says what a value denotes, without regard to its writing: a decimal a rational number, a moment with a
distance from UTC an instant, one without the date and time that it shows.  `Value.same_iff` proves that valid values are
the same exactly if they are of one kind and denote the same thing; percentages stay apart from decimals by their kind
alone.
-/

namespace RequestRules

inductive Meaning
  | word (c : Choice) (first : Bool)
  | number (q : ℚ)
  | text (t : Text)
  /-- a date and a time of day, anywhere -/
  | shown (year month day hour minute second micro : Nat)
  /-- the microseconds in UTC since the day before year 1 -/
  | instant (micros : Int)
  | color (hue saturation brightness : Nat)
  deriving DecidableEq

/-! ## Moments -/

namespace Moment

def meaning (m : Moment) : Meaning :=
  match m.offset with
  | none => .shown m.date.year m.date.month m.date.day m.hour m.minute m.second m.micro
  | some o =>
    let days : Int := Calendar.daysTo m.date.year m.date.month m.date.day
    let seconds := days * 86400 + m.hour * 3600 + m.minute * 60 + m.second
    .instant (seconds * 1000000 + m.micro - o)

variable {m m' : Moment}

theorem Valid.wall_eq (h : m.Valid) : m.wall =
    ((Calendar.daysTo m.date.year m.date.month m.date.day : Int) * 86400 + m.hour * 3600 + m.minute * 60 + m.second) *
      1000000 + m.micro := by
  have hday : microsPerDay = 86400000000 := rfl
  have hsecond : microsPerSecond = 1000000 := rfl
  have hdate : m.date.ordinal = Calendar.daysTo m.date.year m.date.month m.date.day :=
    Calendar.ordinal_eq_daysTo h.date.year_pos h.date.month_pos m.date.day
  unfold wall
  rw [hdate, hday, hsecond]
  push_cast
  omega

/-- What a clock shows on a day leaves only one day and one time. -/
theorem eq_of_wall_eq (h : m.Valid) (h' : m'.Valid) (heq : m.wall = m'.wall) :
    m.date = m'.date ∧ m.hour = m'.hour ∧ m.minute = m'.minute ∧ m.second = m'.second ∧ m.micro = m'.micro := by
  have hday : microsPerDay = 86400000000 := rfl
  have hsecond : microsPerSecond = 1000000 := rfl
  have h1 := h.hour
  have h2 := h.minute
  have h3 := h.second
  have h4 := h.micro
  have h1' := h'.hour
  have h2' := h'.minute
  have h3' := h'.second
  have h4' := h'.micro
  unfold wall at heq
  rw [hday, hsecond] at heq
  have hdate : m.date.ordinal = m'.date.ordinal := by omega
  refine ⟨Date.eq_of_ordinal_eq h.date h'.date hdate, ?_, ?_, ?_, ?_⟩ <;> omega

theorem same_iff (h : m.Valid) (h' : m'.Valid) : m.Same m' ↔ m.meaning = m'.meaning := by
  unfold Same meaning
  cases m.offset with
  | none =>
    cases m'.offset with
    | none =>
      constructor
      · intro heq
        obtain ⟨hdate, h1, h2, h3, h4⟩ := eq_of_wall_eq h h' heq
        simp only [hdate, h1, h2, h3, h4]
      · intro heq
        obtain ⟨h1, h2, h3, h4, h5, h6, h7⟩ := Meaning.shown.inj heq
        rw [h.wall_eq, h'.wall_eq, h1, h2, h3, h4, h5, h6, h7]
    | some o' => exact iff_of_false id (by simp)
  | some o =>
    cases m'.offset with
    | none => exact iff_of_false id (by simp)
    | some o' => simp only [h.wall_eq, h'.wall_eq, Meaning.instant.injEq]

end Moment

/-! ## Values -/

namespace Value

def meaning : Value → Meaning
  | word c first => .word c first
  | decimal d | percent d => .number d.toRat
  | text t => .text t
  | dateTime m => m.meaning
  | color h s b => .color h s b

/-- **Values are the same exactly if they are of one kind and denote the same thing.** -/
theorem same_iff {v w : Value} (hv : v.Valid) (hw : w.Valid) : v.Same w ↔ v.kind = w.kind ∧ v.meaning = w.meaning := by
  cases v <;> cases w <;> simp only [Same, kind, meaning, ValueKind.choice.injEq, reduceCtorEq, false_and, true_and]
  case word.word => simp
  case decimal.decimal => rw [Decimal.sameNumber_iff, Meaning.number.injEq]
  case percent.percent => rw [Decimal.sameNumber_iff, Meaning.number.injEq]
  case text.text => simp
  case dateTime.dateTime => exact Moment.same_iff hv hw
  case color.color => simp

end Value

end RequestRules
