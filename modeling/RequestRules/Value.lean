import RequestRules.Calendar.Moment
import RequestRules.Number.Decimal

/-!
# Values

What can be sent to an item and what an item can be.  There are six kinds of values that are one of two words, and five
kinds of free values.  `Value.render` is the written form, `Value.Same` says which values denote the same thing.
-/

namespace RequestRules

inductive Choice
  | onOff
  | openClosed
  | upDown
  | stopMove
  | increaseDecrease
  | unDef
  deriving DecidableEq, Repr

namespace Choice

def word : Choice → (first : Bool) → Text
  | onOff, true => .of "ON"
  | onOff, false => .of "OFF"
  | openClosed, true => .of "OPEN"
  | openClosed, false => .of "CLOSED"
  | upDown, true => .of "UP"
  | upDown, false => .of "DOWN"
  | stopMove, true => .of "STOP"
  | stopMove, false => .of "MOVE"
  | increaseDecrease, true => .of "INCREASE"
  | increaseDecrease, false => .of "DECREASE"
  | unDef, true => .of "UNDEF"
  | unDef, false => .of "NULL"

def find? (c : Choice) (t : Text) : Option Bool :=
  if t = c.word true then some true else if t = c.word false then some false else none

def name : Choice → Text
  | onOff => .of "OnOffType"
  | openClosed => .of "OpenClosedType"
  | upDown => .of "UpDownType"
  | stopMove => .of "StopMoveType"
  | increaseDecrease => .of "IncreaseDecreaseType"
  | unDef => .of "UnDefType"

end Choice

inductive ValueKind
  | choice (c : Choice)
  | decimal
  | percent
  | text
  | dateTime
  | color
  deriving DecidableEq, Repr

namespace ValueKind

def name : ValueKind → Text
  | choice c => c.name
  | decimal => .of "DecimalType"
  | percent => .of "PercentType"
  | text => .of "StringType"
  | dateTime => .of "DateTimeType"
  | color => .of "HSBType"

def all : List ValueKind :=
  [.choice .onOff, .choice .openClosed, .choice .upDown, .choice .stopMove, .choice .increaseDecrease,
    .choice .unDef, .decimal, .percent, .text, .dateTime, .color]

def ofName? (t : Text) : Option ValueKind := all.find? fun k => k.name = t

end ValueKind

inductive Value
  | word (c : Choice) (first : Bool)
  | decimal (d : Decimal)
  /-- between 0 and 100 -/
  | percent (d : Decimal)
  | text (t : Text)
  | dateTime (m : Moment)
  /-- hue up to 360, saturation and brightness up to 100 -/
  | color (hue saturation brightness : Nat)
  deriving DecidableEq, Repr

namespace Value

def kind : Value → ValueKind
  | word c _ => .choice c
  | decimal _ => .decimal
  | percent _ => .percent
  | text _ => .text
  | dateTime _ => .dateTime
  | color .. => .color

def render : Value → Text
  | word c first => c.word first
  | decimal d | percent d => d.render
  | text t => t
  | dateTime m => m.render
  | color h s b => Text.join [','] [Numeral.ofNat h, Numeral.ofNat s, Numeral.ofNat b]

def Same : Value → Value → Prop
  | word c x, word c' x' => c = c' ∧ x = x'
  | decimal d, decimal d' => d.SameNumber d'
  | percent d, percent d' => d.SameNumber d'
  | text t, text t' => t = t'
  | dateTime m, dateTime m' => m.Same m'
  | color h s b, color h' s' b' => h = h' ∧ s = s' ∧ b = b'
  | _, _ => False

instance (v w : Value) : Decidable (Same v w) := by
  unfold Same; split <;> infer_instance

end Value

end RequestRules
