import RequestRules.Text

/-!
# Transformation calls

The text behind an address is either a transformation, written `default` or `name(parameter)`, or a literal body.  A
call is cut at its last opening parenthesis and is stored as `name=parameter`.
-/

namespace RequestRules

structure Call where
  name : Text
  parameter : Text
  deriving DecidableEq, Repr

namespace Call

/-- The call written in `t`, a single line that ends in `)`. -/
def parse? (t : Text) : Option Call :=
  if t.contains '\n' then none
  else if t.getLast? = some (.char ')') then
    (Text.cutLast? '(' t.dropLast).map fun (name, parameter) => ⟨name, parameter⟩
  else none

def render (c : Call) : Text := c.name ++ .char '(' :: (c.parameter ++ [.char ')'])

def stored (c : Call) : Text := c.name ++ .char '=' :: c.parameter

end Call

inductive Payload
  | transformation (t : Text)
  | body (t : Text)
  deriving DecidableEq, Repr

namespace Payload

/-- The name of the transformation that hands the response on as it is. -/
def default : Text := .of "default"

/-- A transformation if `t` is written as one, else a literal body. -/
def classify (t : Text) : Payload :=
  if t = default then .transformation default
  else match Call.parse? t with
    | some c => .transformation c.stored
    | none => .body t

def transformation? : Payload → Option Text
  | transformation t => some t
  | body _ => none

def body? : Payload → Option Text
  | transformation _ => none
  | body t => some t

end Payload

end RequestRules
