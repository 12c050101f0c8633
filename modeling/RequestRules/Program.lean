import RequestRules.Arguments
import RequestRules.Document
import RequestRules.Hub
import RequestRules.Log

/-!
# The program

The program reads the configuration of a folder, starts a hub, and prints the descriptors of the items that are asked
for.  `Program.run` starts from a content of the configuration file, `Program.ofArguments` from the arguments.
-/

namespace RequestRules

inductive Ending
  | exit (status : Nat)
  /-- an error that nobody deals with -/
  | failure (e : HubError)
  /-- an option that is set to nothing where a text is needed -/
  | noText
  | noLog (o : Files.Obstacle)
  deriving Repr

structure Outcome where
  ending : Ending
  printed : Text := []
  log : List Log.Record := []
  deriving Repr

namespace Program

/-! ## Records -/

def rejected (name : Text) (r : Rejection) : Log.Record :=
  ⟨.error, .inventory, .of "Binding configuration of item " ++ name ++ .of " is invalid: " ++ r.message⟩

def counted (v : Inventory) : Log.Record :=
  ⟨.info, .inventory, Numeral.ofInt ((v.items.length : Int) - v.errors.length) ++ .of " of " ++
    Numeral.ofNat v.items.length ++ .of " items have an http binding"⟩

def complete : Log.Record := ⟨.info, .hub, .of "Core bootstrap complete"⟩

def invalidDomain : Log.Record :=
  ⟨.error, .configuration, .of "Configuration for domain " ++ Hub.itemsDomain ++ .of " is invalid"⟩

def invalidItems : Log.Record := ⟨.critical, .program, .of "The item configuration is invalid"⟩

def unbound (name : Text) : Log.Record := ⟨.warning, .program, .of "Item " ++ name ++ .of " has no http binding"⟩

def noFile (path : Text) : Log.Record := ⟨.critical, .program, .of "Config file does not exist: " ++ path⟩

def unreadable : Log.Record := ⟨.error, .program, .of "Error in config file"⟩

/-! ## Running -/

/-- The names that are asked for, or else all that are bound; nothing is no name. -/
def selected? (r : Registry) (names : Option (List Argument)) : Option (List Text) :=
  match names with
  | none | some [] => some r.itemNames
  | some names => names.mapM fun
    | .text name => some name
    | .nothing => none

/-- The descriptors of some names, by their names; a name that is asked for twice stands once. -/
def descriptors (r : Registry) (names : List Text) : Table Json :=
  names.foldl (fun t name =>
    match r.descriptor? name with
    | some d => t.put name d.plain
    | none => t) []

def render (r : Registry) (names : List Text) : Text :=
  (Json.object (descriptors r names)).render (some (Json.blanks 2)) ++ [.char '\n']

def loadLog (entries : Setting) : List Log.Record :=
  (Inventory.rejections ((Inventory.entries? entries).getD [])).map fun (name, r) => rejected name r

def run (content : Setting) (names : Option (List Argument)) : Outcome :=
  match (Hub.ofContent content).register with
  | (.error (.invalid _), _) => { ending := .exit 1, log := [invalidDomain, invalidItems] }
  | (.error e, _) => { ending := .failure (.configuration e) }
  | (.ok entries, h) =>
    match h.load entries with
    | (.error e, _) => { ending := .failure e, log := loadLog entries }
    | (.ok (), h) =>
      let r := h.inventory.registry
      let log := loadLog entries ++ [counted h.inventory, complete]
      match selected? r names with
      | none => { ending := .noText, log }
      | some names =>
        { ending := .exit (if h.inventory.errors.isEmpty then 0 else 1)
          printed := render r names
          log := log ++ (names.filter fun name => !r.binds name).map unbound }

def fileName : Text := .of "configuration.yaml"

def runFolder (s : Yaml.Surroundings) (folder : Text) (names : Option (List Argument)) : Outcome :=
  let path := Path.append folder fileName
  match Yaml.loadFile? { s with configFolder := some folder } path with
  | none => { ending := .exit 1, log := [noFile path] }
  | some (.error .malformed) => { ending := .exit 1, log := [unreadable] }
  | some (.error f) => { ending := .failure (.configuration (.fault f)) }
  | some (.ok v) => run (Configuration.orEmpty v) names

/-- The log file that is asked for, if it has a name. -/
def logFile? (a : Arguments) : Option Text :=
  match a.logFile with
  | some (.text (c :: t)) => some (c :: t)
  | _ => none

def runArguments (s : Yaml.Surroundings) (a : Arguments) : Outcome :=
  match a.folder with
  | .text folder => runFolder s folder a.items
  | .nothing => { ending := .noText }

/-- Reads the arguments and runs with them.  The log file, if there is one, is empty in the beginning, and gets the
records that are shown there and can be written. -/
def ofArguments (s : Yaml.Surroundings) (argv : List Text) : Outcome × Option (Text × List Log.Record) :=
  match Arguments.read s.home argv with
  | .error stop => ({ ending := .exit stop.status }, none)
  | .ok a =>
    match logFile? a with
    | none => (runArguments s a, none)
    | some path =>
      match s.files.clear path with
      | .error o => ({ ending := .noLog o }, none)
      | .ok files =>
        let o := runArguments { s with files } a
        (o, some (path, o.log.filter fun r => r.isShown a.verbose && r.isWritable))

end Program

end RequestRules
