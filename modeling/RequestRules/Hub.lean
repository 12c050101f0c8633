import RequestRules.Configuration
import RequestRules.Inventory

/-!
# The hub

A hub holds a configuration and the inventory that is made from it.  `start` registers the domain of the items and loads
them; `reload` takes over a later content of the configuration file, and loads the items again if they have changed.
-/

namespace RequestRules

structure Hub where
  configuration : Configuration
  inventory : Inventory := {}

inductive HubError
  | configuration (e : ConfigurationError)
  | entry (e : EntryError)
  deriving Repr

def HubError.message? : HubError → Option Text
  | configuration e => e.message?
  | entry e => e.message?

namespace Hub

def itemsDomain : Text := .of "items"

/-- A hub that is not started. -/
def ofContent (content : Setting) : Hub := { configuration := { content := content } }

def load (h : Hub) (entries : Setting) : Except HubError Unit × Hub :=
  let (r, v) := h.inventory.load entries
  (r.mapError .entry, { h with inventory := v })

def register (h : Hub) : Except ConfigurationError Setting × Hub :=
  let (r, c) := h.configuration.register itemsDomain ⟨some Inventory.schema, true⟩ (some (.list []))
  (r, { h with configuration := c })

/-- Registers the domain of the items, and loads them. -/
def start (h : Hub) : Except HubError Unit × Hub :=
  match h.register with
  | (.error e, h) => (.error (.configuration e), h)
  | (.ok entries, h) => h.load entries

def tell (change : Change) (v : Inventory) : Except HubError Unit × Inventory :=
  let (r, v) := v.load change.setting
  (r.mapError .entry, v)

/-- Takes over the content of the configuration file, if there is one. -/
def reload (h : Hub) (content : Except ConfigurationError Setting) : Except HubError Unit × Hub :=
  let (r, c, v) := h.configuration.reload tell .configuration h.inventory none content
  (r.map fun _ => (), ⟨c, v⟩)

end Hub

end RequestRules
