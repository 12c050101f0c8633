import RequestRules.Value

/-!
# Items

An item is a named thing of one of eight types.  Its type says which commands can be sent to it and which states it can
be in, each in the order in which they are tried.
-/

namespace RequestRules

inductive ItemType
  | switch
  | contact
  | number
  | text
  | dimmer
  | rollershutter
  | color
  | dateTime
  deriving DecidableEq, Repr

namespace ItemType

def all : List ItemType := [switch, contact, number, text, dimmer, rollershutter, color, dateTime]

def name : ItemType → Text
  | switch => .of "Switch"
  | contact => .of "Contact"
  | number => .of "Number"
  | text => .of "String"
  | dimmer => .of "Dimmer"
  | rollershutter => .of "Rollershutter"
  | color => .of "Color"
  | dateTime => .of "DateTime"

def ofName? (t : Text) : Option ItemType := all.find? fun i => i.name = t

def sortedNames : List Text :=
  [color, contact, dateTime, dimmer, number, rollershutter, text, switch].map name

def states : ItemType → List ValueKind
  | switch => [.choice .onOff, .choice .unDef]
  | contact => [.choice .openClosed, .choice .unDef]
  | number => [.decimal, .choice .unDef]
  | text => [.text, .dateTime, .choice .unDef]
  | dimmer => [.percent, .choice .onOff, .choice .unDef]
  | rollershutter => [.choice .upDown, .percent, .choice .unDef]
  | color => [.color, .percent, .choice .onOff, .choice .unDef]
  | dateTime => [.dateTime, .choice .unDef]

def commands : ItemType → List ValueKind
  | switch => [.choice .onOff]
  | contact => [.choice .openClosed]
  | number => [.decimal]
  | text => [.text]
  | dimmer => [.percent, .choice .onOff, .choice .increaseDecrease]
  | rollershutter => [.choice .upDown, .choice .stopMove, .percent]
  | color => [.color, .percent, .choice .onOff, .choice .increaseDecrease]
  | dateTime => [.dateTime]

end ItemType

structure Item where
  type : ItemType
  name : Text
  label : Text
  deriving DecidableEq, Repr

namespace Item

/-- The label that is shown; without one it is the name. -/
def labelOr (name : Text) : Option Text → Text
  | none | some [] => name
  | some l => l

/-- The item of a type's name, unless there is no such type. -/
def create? (typeName name : Text) (label : Option Text) : Option Item :=
  (ItemType.ofName? typeName).map fun type => ⟨type, name, labelOr name label⟩

def unknownType (typeName : Text) : Text := .of "Item type not found: " ++ typeName

def render (i : Item) : Text :=
  .of "<Item " ++ i.type.name ++ .of " name=" ++ i.name ++ [.char '>']

end Item

end RequestRules
