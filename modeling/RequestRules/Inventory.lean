import RequestRules.Registry
import RequestRules.Schema

/-!
# The inventory

The inventory holds the items of a configuration, their rules, and for each item with rejected rules the reason.

* `register` reads the rules of an item and says whether they are accepted;
* `load` replaces all items of the configuration by those of a list of entries.
-/

namespace RequestRules

structure Inventory where
  items : Table Item := []
  errors : Table Rejection := []
  registry : Registry := {}
  deriving DecidableEq, Repr

inductive EntryError
  | noField
  /-- an entry or a field is not of the right sort -/
  | wrongSort
  | unknownType (name : Text)
  | descriptor (e : DescriptorError)
  deriving DecidableEq, Repr

def EntryError.message? : EntryError → Option Text
  | noField | wrongSort => none
  | unknownType name => some (Item.unknownType name)
  | descriptor e => some e.message

/-! ## Entries -/

/-- What an entry says: nothing, or an item with its rules, which may be missing or of the wrong sort. -/
inductive Entry
  | disabled
  | enabled (item : Item) (rules : Except EntryError (Option Text))

namespace Entry

/-- The rules of an entry.  A list, bytes and a pair are looked at as the text that they are shown as. -/
def rules (fields : List (Setting × Setting)) : Except EntryError (Option Text) :=
  match Setting.field? "http" fields with
  | none => .error .noField
  | some .null => .ok none
  | some (.text t) => .ok (some t)
  | some v => if v.isSequence then .ok (some v.shown) else .error .wrongSort

/-- The text of a field that is no container. -/
def word (v : Setting) : Except EntryError Text :=
  match v with
  | .text t => .ok t
  | v => if v.isKey then .ok v.shown else .error .wrongSort

/-- The label of an entry, if it is there and counts as a yes. -/
def label (fields : List (Setting × Setting)) : Option Text :=
  match Setting.field? "label" fields with
  | some (.text t) => some t
  | some v => if v.isTruthy then some v.shown else none
  | none => none

def item (fields : List (Setting × Setting)) : Except EntryError Item :=
  match Setting.field? "type" fields, Setting.field? "name" fields with
  | some type, some name => do
    let typeName ← word type
    match Item.create? typeName [] none with
    | none => .error (.unknownType typeName)
    | some i =>
      let name ← word name
      return ⟨i.type, name, Item.labelOr name (label fields)⟩
  | _, _ => .error .noField

def read (v : Setting) : Except EntryError Entry :=
  match v with
  | .map fields =>
    match Setting.field? "enabled" fields with
    | none => .error .noField
    | some e =>
      if e.isTruthy then do return .enabled (← item fields) (rules fields)
      else if (Setting.field? "name" fields).isSome then .ok .disabled
      else .error .noField
  | _ => .error .wrongSort

end Entry

namespace Inventory

def context : Text := .of "yaml"

/-! ## One item -/

/-- Reads the rules of an item under a context, and says whether they are accepted; without rules nothing is read.  A
rejection is kept until the item is registered again. -/
def register (v : Inventory) (context : Text) (item : Item) (rules : Option Text) :
    Except DescriptorError Bool × Inventory :=
  let errors := v.errors.erase item.name
  match v.registry.process context item rules with
  | (.ok _, r) => (.ok true, { v with errors := errors, registry := r })
  | (.error (.rejected e), r) => (.ok false, { v with errors := errors.put item.name e, registry := r })
  | (.error e, r) => (.error e, { v with errors := errors, registry := r })

def item? (v : Inventory) (name : Text) : Option Item := v.items.get? name

/-! ## All items -/

/-- The inventory without the items of the configuration. -/
def clear (v : Inventory) : Inventory := { registry := v.registry.removeContext context }

/-- Adds the item of an entry and registers it.  Rules that are missing are noticed before that, rules of the wrong sort
once the rejection that was held is gone. -/
def add (v : Inventory) (entry : Setting) : Except EntryError Unit × Inventory :=
  match Entry.read entry with
  | .error e => (.error e, v)
  | .ok .disabled => (.ok (), v)
  | .ok (.enabled item rules) =>
    let v := { v with items := v.items.put item.name item }
    match rules with
    | .error .noField => (.error .noField, v)
    | .error e => (.error e, { v with errors := v.errors.erase item.name })
    | .ok rules =>
      match v.register context item rules with
      | (.ok _, v) => (.ok (), v)
      | (.error e, v) => (.error (.descriptor e), v)

/-- Adds the items of some entries, up to the first that cannot be added. -/
def addAll (v : Inventory) : List Setting → Except EntryError Unit × Inventory
  | [] => (.ok (), v)
  | e :: es =>
    match v.add e with
    | (.ok (), v) => addAll v es
    | (.error e, v) => (.error e, v)

/-- The entries of a setting; a map has its keys for entries, a text its characters. -/
def entries? : Setting → Option (List Setting)
  | .list xs | .set xs => some xs
  | .map es => some (es.map (·.1))
  | .text t => some (t.map fun c => .text [c])
  | .bytes bs => some (bs.map fun b => .int b.toNat)
  | .pair a b => some [a, b]
  | .null | .bool _ | .int _ | .real _ | .noNumber | .date _ | .moment _ | .endless => none

/-- Replaces the items of the configuration by those of a list of entries. -/
def load (v : Inventory) (s : Setting) : Except EntryError Unit × Inventory :=
  match entries? s with
  | some es => v.clear.addAll es
  | none => (.error .wrongSort, v.clear)

/-- The rejections in the order in which they arise while entries are added. -/
def rejections : List Setting → List (Text × Rejection)
  | [] => []
  | e :: es =>
    match Entry.read e with
    | .ok .disabled => rejections es
    | .ok (.enabled item (.ok (some t))) =>
      match Descriptor.parse item t with
      | .ok _ => rejections es
      | .error (.rejected r) => (item.name, r) :: rejections es
      | .error _ => []
    | .ok (.enabled _ (.ok none)) => rejections es
    | .ok (.enabled _ (.error _)) | .error _ => []

/-! ## The schema of the entries -/

def schema : Schema :=
  .list (.map [
    (⟨.of "name", true, none⟩, .text),
    (⟨.of "type", true, none⟩, .choice ItemType.sortedNames),
    (⟨.of "label", false, none⟩, .text),
    (⟨.of "http", true, none⟩, .text),
    (⟨.of "enabled", true, some (.bool true)⟩, .bool)] true)

end Inventory

end RequestRules
