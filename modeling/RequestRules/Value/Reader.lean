import RequestRules.Calendar.Moment.Reader
import RequestRules.Number.Whole
import RequestRules.Value

/-!
# Reading values

`Value.read k t` is the value of kind `k` that `t` denotes; `Value.readAny ks t` is the first one over a list of kinds.
-/

namespace RequestRules

inductive ValueError
  | notWord (c : Choice) (t : Text)
  | surroundingBlank (t : Text)
  | notNumber (t : Text)
  | notFinite (t : Text)
  | notPercent (d : Decimal)
  | notColor (t : Text)
  | whole (e : Whole.Failure)
  | hue (n : Int)
  | saturationOrBrightness
  | moment (e : Moment.Failure)
  deriving DecidableEq, Repr

def ValueError.message : ValueError → Text
  | notWord c t => t.quoted ++ .of " is not a valid " ++ c.name
  | surroundingBlank t => t.quoted ++ .of " has surrounding whitespace"
  | notNumber t => t.quoted ++ .of " is not a number"
  | notFinite t => t.quoted ++ .of " is not a finite number"
  | notPercent d => d.render ++ .of " is not between 0 and 100"
  | notColor t => t.quoted ++ .of " is not of the form h,s,b"
  | whole e => e.message
  | hue n => .of "Hue " ++ Numeral.ofInt n ++ .of " is not between 0 and 360"
  | saturationOrBrightness => .of "Saturation and brightness have to be between 0 and 100"
  | moment e => e.message

namespace Value

def readDecimal (t : Text) : Except ValueError Decimal :=
  if t ≠ t.trim then .error (.surroundingBlank t)
  else match Decimal.read t with
    | .number d => .ok d
    | .special => .error (.notFinite t)
    | .invalid => .error (.notNumber t)

def readPercent (t : Text) : Except ValueError Decimal := do
  let d ← readDecimal t
  if d.isNonnegative ∧ d.isAtMostHundred then .ok d else .error (.notPercent d)

def makeColor (h s b : Int) : Except ValueError Value :=
  if ¬(0 ≤ h ∧ h ≤ 360) then .error (.hue h)
  else if ¬((0 ≤ s ∧ s ≤ 100) ∧ 0 ≤ b ∧ b ≤ 100) then .error .saturationOrBrightness
  else .ok (.color h.toNat s.toNat b.toNat)

def readColor (t : Text) : Except ValueError Value :=
  match t.split ',' with
  | [h, s, b] => do
    let h ← (Whole.read h).mapError .whole
    let s ← (Whole.read s).mapError .whole
    let b ← (Whole.read b).mapError .whole
    makeColor h s b
  | _ => .error (.notColor t)

def read (k : ValueKind) (t : Text) : Except ValueError Value :=
  match k with
  | .choice c =>
    match c.find? t with
    | some first => .ok (.word c first)
    | none => .error (.notWord c t)
  | .decimal => (readDecimal t).map .decimal
  | .percent => (readPercent t).map .percent
  | .text => .ok (.text t)
  | .dateTime => ((Moment.read t).mapError .moment).map .dateTime
  | .color => readColor t

/-- The value that `t` denotes for the first of the kinds that has one. -/
def readAny? (ks : List ValueKind) (t : Text) : Option Value :=
  ks.findSome? fun k => (read k t).toOption

end Value

end RequestRules
