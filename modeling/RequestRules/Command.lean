import RequestRules.Value.Reader

/-!
# Command keys

A rule of an item is found by its key: a command, or one of three marks.  `Key.resolve` gives the key of a word in a
configuration, `Key.Same` says which keys find the same rule.
-/

namespace RequestRules

inductive Key
  /-- every change of state -/
  | changed
  /-- every command that has no rule of its own -/
  | wildcard
  /-- the rule for polling -/
  | inbound
  | command (v : Value)
  deriving DecidableEq, Repr

structure CommandError where
  token : Text
  accepted : List ValueKind
  deriving DecidableEq, Repr

def CommandError.message (e : CommandError) : Text :=
  .of "couldn't create Command from '" ++ e.token ++ [.char '\'']

namespace Key

def render : Key → Text
  | changed => .of "CHANGED"
  | wildcard => ['*']
  | inbound => .of "IN_BINDING"
  | command v => v.render

def kindName : Key → Text
  | changed | wildcard | inbound => .of "BindingKey"
  | command v => v.kind.name

def Same : Key → Key → Prop
  | changed, changed => True
  | wildcard, wildcard => True
  | inbound, inbound => True
  | command v, command w => v.Same w
  | _, _ => False

instance (k l : Key) : Decidable (Same k l) := by
  unfold Same; split <;> infer_instance

def resolve (token : Text) (accepted : List ValueKind) : Except CommandError Key :=
  if token = changed.render then .ok changed
  else if token = wildcard.render then .ok wildcard
  else match Value.readAny? accepted token with
    | some v => .ok (command v)
    | none => .error ⟨token, accepted⟩

end Key

end RequestRules
