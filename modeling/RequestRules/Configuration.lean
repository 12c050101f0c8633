import RequestRules.Schema
import RequestRules.Text.Quoted
import RequestRules.Yaml.Content

/-!
# The configuration

A configuration is the content of a configuration file.  Its entries are domains; who uses one registers it, perhaps with
a schema.

* `register` gives the valid setting of a domain;
* `reload` takes over a later content of the file, as far as it concerns registered domains, is valid, and differs.
-/

namespace RequestRules

structure Domain where
  schema : Option Schema := none
  /-- somebody is told when the domain changes -/
  listens : Bool := false

inductive ConfigurationError
  | noFile (path : Text)
  | fault (f : Yaml.Fault)
  | notMap
  | taken (domain : Text)
  | invalid (cs : Complaints)
  deriving Repr

def ConfigurationError.message? : ConfigurationError → Option Text
  | noFile path => some (.of "[Errno 2] No such file or directory: " ++ path.quoted)
  | fault f => f.message?
  | notMap => none
  | taken domain => some (.of "The configuration domain " ++ domain ++ .of " is already registered")
  | invalid cs => some cs.first.message

structure Change where
  domain : Text
  setting : Setting
  listens : Bool
  deriving Repr

structure Configuration where
  content : Setting
  domains : Table Domain := []

namespace Configuration

/-- A content that counts as no counts as an empty map. -/
def orEmpty (s : Setting) : Setting := if s.isTruthy then s else .map []

/-- Reads the content of a file, whose folder is the configuration folder. -/
def ofFile (s : Yaml.Surroundings) (path : Text) : Except ConfigurationError Setting :=
  match Yaml.loadFile? { s with configFolder := some (Path.folder path) } path with
  | none => .error (.noFile path)
  | some (.error f) => .error (.fault f)
  | some (.ok v) => .ok (orEmpty v)

def validate (c : Configuration) (domain : Text) (v : Setting) : Except ConfigurationError Setting :=
  match (c.domains.get? domain).bind Domain.schema with
  | none => .ok v
  | some s => (s.check v).mapError .invalid

/-- The valid setting of a domain, which is registered even if there is none; a domain that is left out has a default. -/
def register (c : Configuration) (name : Text) (d : Domain) (fallback : Option Setting) :
    Except ConfigurationError Setting × Configuration :=
  if c.domains.has name then (.error (.taken name), c)
  else
    let c := { c with domains := c.domains.put name d }
    match c.content with
    | .map es =>
      (c.validate name ((Setting.find? (.text name) es).getD (fallback.getD (.map []))), c)
    | _ => (.error .notMap, c)

def domain? (c : Configuration) : Setting → Option (Text × Domain)
  | .text name => (c.domains.get? name).map (name, ·)
  | _ => none

/-- Takes over an entry, if it differs, is of a registered domain, and is valid. -/
def take (es : List (Setting × Setting)) (c : Configuration) (k v : Setting) :
    Except ConfigurationError (Option (Change × Configuration)) :=
  match v.same? ((Setting.find? k es).getD .null) with
  | none => .error (.fault .endless)
  | some true => .ok none
  | some false => .ok do
    let (name, d) ← c.domain? k
    match c.validate name v with
    | .ok w => return (⟨name, w, d.listens⟩, { c with content := .map (Setting.put es k v) })
    | .error _ => none

section TakeAll

variable {σ ε : Type} (tell : Change → σ → Except ε Unit × σ) (ofError : ConfigurationError → ε)

/-- Takes over some entries one by one.  A change is told before the next entry is looked at; the first fault ends it,
and what has been taken over by then stays. -/
def takeAll (c : Configuration) (s : σ) : List (Setting × Setting) → Except ε Unit × Configuration × σ
  | [] => (.ok (), c, s)
  | (k, v) :: new =>
    match c.content with
    | .map es =>
      match take es c k v with
      | .error e => (.error (ofError e), c, s)
      | .ok none => takeAll c s new
      | .ok (some (change, c)) =>
        match tell change s with
        | (.ok (), s) => takeAll c s new
        | (.error e, s) => (.error e, c, s)
    | _ => (.error (ofError .notMap), c, s)

end TakeAll

/-- The entries of a domain, or all entries if none is named. -/
def only (domain : Option Text) (es : List (Setting × Setting)) : List (Setting × Setting) :=
  match domain with
  | none | some [] => es
  | some d => es.filter fun (k, _) => k.isText d

section Reload

variable {σ ε : Type} (tell : Change → σ → Except ε Unit × σ) (ofError : ConfigurationError → ε)

def update (c : Configuration) (s : σ) (domain : Option Text) (new : Setting) : Except ε Unit × Configuration × σ :=
  match new with
  | .map es => c.takeAll tell ofError s (only domain es)
  | _ => (.error (ofError .notMap), c, s)

/-- Keeps the changes in order, and tells who listens. -/
def notify (change : Change) : List Change × σ → Except ε Unit × List Change × σ
  | (changes, s) =>
    if change.listens then
      let (r, s) := tell change s
      (r, changes ++ [change], s)
    else (.ok (), changes ++ [change], s)

/-- Takes over a later content of the file, if there is one, and gives the domains that have changed. -/
def reload (c : Configuration) (s : σ) (domain : Option Text) (content : Except ConfigurationError Setting) :
    Except ε (List Text) × Configuration × σ :=
  match content with
  | .error e => (.error (ofError e), c, s)
  | .ok new =>
    let (r, c, changes, s) := c.update (notify tell) ofError ([], s) domain new
    (r.map fun _ => changes.map Change.domain, c, s)

end Reload

def record (change : Change) (changes : List Change) : Except ConfigurationError Unit × List Change :=
  (.ok (), changes ++ [change])

end Configuration

end RequestRules
