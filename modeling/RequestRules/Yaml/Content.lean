import RequestRules.Files
import RequestRules.Table
import RequestRules.Text.Blank
import RequestRules.Yaml.Node.Reader
import RequestRules.Yaml.Part
import RequestRules.Yaml.Scalar.Binary
import RequestRules.Yaml.Scalar.Number
import RequestRules.Yaml.Scalar.Time

/-!
# The content of a document

A node denotes a setting by its tag.  Besides the tags of the language there are three more: `!include` for the content
of a file, `!path` for the path of one, and `!env_var` for a variable, perhaps with a value for when it is not set.

A collection is begun where it is met, and filled when all that were met before it are filled.  So of several faults the
one nearest to the root counts, and of those the first.  A key `<<` brings the entries of other maps, which come before
the entries of its own map.
-/

namespace RequestRules.Yaml

structure Surroundings where
  home : Text
  environment : Table Text := []
  files : Files := {}
  configFolder : Option Text := none

/-! ## Scalars -/

/-- The text of a scalar; a map stands for what is under its first key `=`. -/
def Nodes.text (g : Nodes) : (fuel : Nat) → Node → Except Fault Text
  | 0, _ => .error .endless
  | fuel + 1, n =>
    match n.shape with
    | .scalar t => .ok t
    | .sequence _ => .error .malformed
    | .mapping es =>
      match g.cutAt? Tag.value es with
      | some (_, v, _) => text g fuel (g.node v)
      | none => .error .malformed

namespace Content

def readBool (t : Text) : Except Fault Setting :=
  let w := t.map CodePoint.toLower
  if Tag.trueWords.contains w then .ok (.bool true)
  else if Tag.falseWords.contains w then .ok (.bool false)
  else .error .unknownName

/-- The time that a scalar is.  A newline at its end does not count. -/
def readTime (n : Node) : Except Fault Setting :=
  match n.text? with
  | none => .error .timeOfMap
  | some t =>
    match Time.read? (if t.getLast? = some (.char '\n') then t.dropLast else t) with
    | none => .error .notTime
    | some s => s.toSetting.mapError .calendar

/-- The value of a variable, or the words behind its name if it is not set. -/
def readVariable (environment : Table Text) (t : Text) : Except Fault Setting :=
  match t.words with
  | [] => .error .noName
  | name :: words =>
    if !name.isEncodable then .error .notEncodable
    else match environment.get? name, words with
      | some v, _ => .ok (.text v)
      | none, [] => .error .unknownName
      | none, words => .ok (.text (Text.join [' '] words))

/-- Why the system cannot be asked for the home of the user that a path begins with. -/
def homeFault? : Text → Option Fault
  | '~' :: p =>
    let user : Text := p.takeWhile (· ≠ .char '/')
    if !user.isEncodable then some .notEncodable else if user.contains '\x00' then some .nul else none
  | _ => none

def readPath (s : Surroundings) (file : Text) (n : Node) : Except Fault Text :=
  match n.text? with
  | none => .error .malformed
  | some t =>
    match homeFault? t with
    | some f => .error f
    | none => .ok (Path.resolve s.home s.configFolder file t)

/-- What the tag of a node makes of its text, if it is a tag for texts. -/
def reader? (s : Surroundings) (n : Node) : Option (Text → Except Fault Setting) :=
  if n.tag = Tag.null then some fun _ => .ok .null
  else if n.tag = Tag.bool then some readBool
  else if n.tag = Tag.int then some fun t => (readInt t).map .int
  else if n.tag = Tag.float then some readFloat
  else if n.tag = Tag.str then some fun t => .ok (.text t)
  else if n.tag = Tag.timestamp then some fun _ => readTime n
  else if n.tag = Tag.binary then
    some fun t => match Binary.read? t with | some bs => .ok (.bytes bs) | none => .error .malformed
  else if n.tag = .of "!env_var" then some (readVariable s.environment)
  else none

/-! ## Making parts -/

/-- The nodes, what is made of them so far, and the collections that have been met. -/
structure Work where
  nodes : Nodes
  /-- there are fewer entries with the key `<<` -/
  bound : Nat
  parts : Parts
  met : Array Nat := #[]

abbrev Making := StateT Work (Except Fault)

def nodeAt (i : Nat) : Making Node := return (← get).nodes.node i

def partAt? (i : Nat) : Making (Option Part) := return (← get).parts.part? i

def setNode (i : Nat) (n : Node) : Making Unit :=
  modify fun w => { w with nodes := w.nodes.setIfInBounds i n }

def setPart (i : Nat) (p : Part) : Making Unit :=
  modify fun w => { w with parts := w.parts.setIfInBounds i (some p) }

def entriesAt (i : Nat) : Making (List (Nat × Nat)) := do
  match (← nodeAt i).entries? with
  | some es => return es
  | none => throw .malformed

def plainKey (k : Nat) : Making Unit := do
  let n ← nodeAt k
  if n.tag = Tag.value then setNode k { n with tag := Tag.str }

/-- Takes the keys `<<` out of a map one after the other.  The entries that they bring come before its own in the end,
and those of a list of maps in reverse.  Each key that is taken out uses one unit of fuel. -/
def flatten : (fuel : Nat) → (brought : List (Nat × Nat)) → Nat → Making (List (Nat × Nat))
  | 0, _, _ => throw .endless
  | fuel + 1, brought, i => do
    let es ← entriesAt i
    match (← get).nodes.cutAt? Tag.merge es with
    | none =>
      es.forM fun e => plainKey e.1
      let all := brought ++ es
      setNode i { (← nodeAt i) with shape := .mapping all }
      return all
    | some (front, v, back) =>
      setNode i { (← nodeAt i) with shape := .mapping (front ++ back) }
      let found ← match (← nodeAt v).shape with
        | .mapping _ => flatten fuel [] v
        | .sequence ns => ns.foldlM (fun found n => return (← flatten fuel [] n) ++ found) []
        | .scalar _ => throw .malformed
      flatten fuel (brought ++ found) i

section Making

variable (s : Surroundings) (file : Text) (load : Text → Except Fault Setting)

/-- The setting of a node that is no collection; `load` gives the content of a file. -/
def single (g : Nodes) (n : Node) : Except Fault Setting :=
  if n.tag = .of "!include" then (readPath s file n).bind load
  else if n.tag = .of "!path" then (readPath s file n).map .text
  else match reader? s n with
    | some read => (g.text (g.size + 1) n).bind read
    | none => .error .malformed

/-- Makes a part of a node, unless there is one; a collection is only begun. -/
def make (i : Nat) : Making Unit := do
  if (← partAt? i).isNone then
    let n ← nodeAt i
    match Part.empty? n.tag with
    | some p =>
      setPart i p
      modify fun w => { w with met := w.met.push i }
    | none => setPart i (.whole (← single s file load (← get).nodes n))

def makePair (i : Nat) : Making (Nat × Nat) := do
  match ← entriesAt i with
  | [(k, v)] =>
    make s file load k
    make s file load v
    return (k, v)
  | _ => throw .malformed

/-- Makes the parts of the entries of a map; of two entries with one key the later counts. -/
def makeEntries (i : Nat) : Making (List (Nat × Nat)) := do
  let es ← flatten (← get).bound [] i
  es.forM fun (k, v) => do
    make s file load k
    if !(← partAt? k).any Part.isKey then throw .malformed
    make s file load v
  let ps := (← get).parts
  return es.foldl (fun all (k, v) => ps.put all k v) []

def fill (i : Nat) : Making Unit := do
  let n ← nodeAt i
  match ← partAt? i, n.shape with
  | some (.list _), .sequence ns =>
    ns.forM (make s file load)
    setPart i (.list ns)
  | some (.pairs _), .sequence ns => setPart i (.pairs (← ns.mapM (makePair s file load)))
  | some (.set _), .mapping _ => setPart i (.set (← makeEntries s file load i))
  | some (.map _), .mapping _ => setPart i (.map (← makeEntries s file load i))
  | _, _ => throw .malformed

/-- Fills the collections from the `k`th on in the order in which they are met. -/
def fillFrom : (fuel : Nat) → (k : Nat) → Making Unit
  | 0, _ => return
  | fuel + 1, k => do
    match (← get).met[k]? with
    | some i =>
      fill s file load i
      fillFrom fuel (k + 1)
    | none => return

def ofGraph (g : Graph) : Except Fault Setting := do
  let count := g.nodes.size
  let entries := g.nodes.foldl (fun n node => n + (node.entries?.getD []).length) 0
  let w : Work := { nodes := g.nodes, bound := entries + 1, parts := Array.replicate count none }
  let (_, w) ← (do make s file load g.root; fillFrom s file load count 0 : Making Unit).run w
  return w.parts.setting g.root

end Making

end Content

/-! ## Loading -/

/-- The content of a document, with as many files inside of each other as there is fuel. -/
def loadWith (s : Surroundings) : (fuel : Nat) → (file : Text) → Graph → Except Fault Setting
  | 0, _, _ => .error .endless
  | fuel + 1, file, g =>
    let included (path : Text) : Except Fault Setting :=
      match s.files.read? path with
      | some t => (Graph.ofFile t).bind (loadWith s fuel path)
      | none => .error (.noFile path)
    Content.ofGraph s file included g

/-- The content of a document.  More files inside of each other than there are files are a loop. -/
def loadGraph (s : Surroundings) (file : Text) (g : Graph) : Except Fault Setting :=
  loadWith s (s.files.texts.length + 1) file g

def load (s : Surroundings) (t : Text) : Except Fault Setting := (Graph.ofText t).bind (loadGraph s [])

def loadFile? (s : Surroundings) (file : Text) : Option (Except Fault Setting) :=
  (s.files.read? file).map fun t => (Graph.ofFile t).bind (loadGraph s file)

end RequestRules.Yaml
