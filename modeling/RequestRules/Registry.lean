import RequestRules.Descriptor
import RequestRules.Table

/-!
# The registry of descriptors

The registry holds the descriptor of each item, and under each context (the source a configuration came from) the names
that were registered there.

* `process` reads a configuration text and registers its descriptor; a rejected text leaves the item without one;
* `remove` drops an item, `removeContext` all items of a context;
* `request?` finds the request for a command, or for polling.
-/

namespace RequestRules

structure Registry where
  descriptors : Table Descriptor := []
  contexts : Table (List Text) := []
  deriving DecidableEq, Repr

namespace Registry

def empty : Registry := {}

/-! ## Changes -/

/-- Drops an item, also from the contexts. -/
def remove (r : Registry) (name : Text) : Registry where
  descriptors := r.descriptors.erase name
  contexts := r.contexts.map fun (c, names) => (c, names.filter (· ≠ name))

/-- Drops a context and the items under it. -/
def removeContext (r : Registry) (context : Text) : Registry where
  descriptors := ((r.contexts.get? context).getD []).foldl Table.erase r.descriptors
  contexts := r.contexts.erase context

def addName (names : List Text) (name : Text) : List Text :=
  if name ∈ names then names else names ++ [name]

def register (r : Registry) (context name : Text) (d : Descriptor) : Registry where
  descriptors := r.descriptors.put name d
  contexts := r.contexts.put context (addName ((r.contexts.get? context).getD []) name)

/-- Reads the configuration text of an item and registers its descriptor.  Without a text nothing happens. -/
def process (r : Registry) (context : Text) (item : Item) (text : Option Text) :
    Except DescriptorError (Option Descriptor) × Registry :=
  match text with
  | none => (.ok none, r)
  | some t =>
    match Descriptor.parse item t with
    | .ok d => (.ok (some d), r.register context item.name d)
    | .error (.rejected e) => (.error (.rejected e), r.remove item.name)
    | .error e => (.error e, r)

/-! ## Questions -/

def itemNames (r : Registry) : List Text := r.descriptors.names

def isBinding (r : Registry) : Bool := !r.descriptors.isEmpty

def binds (r : Registry) (name : Text) : Bool := r.descriptors.has name

def descriptor? (r : Registry) (name : Text) : Option Descriptor := r.descriptors.get? name

/-- The request of an item for a command, or for polling if there is none. -/
def request? (r : Registry) (name : Text) (command : Option Key) : Option Request := do
  let d ← r.descriptor? name
  match command with
  | none => d.inbound
  | some k => d.resolve k

def method? (r : Registry) (name : Text) (command : Option Key) : Option Text :=
  (r.request? name command).bind Request.method

def url? (r : Registry) (name : Text) (command : Option Key) : Option Text :=
  (r.request? name command).map Request.url

def headers? (r : Registry) (name : Text) (command : Option Key) : Option (List Header) :=
  (r.request? name command).map Request.headers

def body? (r : Registry) (name : Text) (command : Option Key) : Option Text :=
  (r.request? name command).bind Request.body

def transformation? (r : Registry) (name : Text) (command : Option Key) : Option Text :=
  (r.request? name command).bind Request.transformation

/-- The milliseconds between two polls, zero for an item that is not polled. -/
def interval (r : Registry) (name : Text) : Int :=
  match r.request? name none with
  | none => 0
  | some q => q.interval

def state? (r : Registry) (name value : Text) : Option Value := do
  (← r.descriptor? name).readState? value

def polledNames (r : Registry) : List Text :=
  Table.names (r.descriptors.filter fun (_, d) => d.contains .inbound)

def bindingType : Text := .of "http"

end Registry

end RequestRules
