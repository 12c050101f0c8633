import RequestRules.Table
import RequestRules.Yaml.Fault
import RequestRules.Yaml.Node
import RequestRules.Yaml.Tag
import RequestRules.Yaml.Token.Lexer

/-!
# From tokens to nodes

The reader takes tokens off the front and adds nodes to the table.  `Reader.node` reads a node with its anchor and its
tag, and gives its place; the collections read their nodes one after the other.  Each step has one unit of fuel less, of
which there are more than steps that take a token or end.  A text is one document at most.
-/

namespace RequestRules.Yaml

/-- The tokens that are left, and what the names in them stand for. -/
structure Reader where
  tokens : List Token
  /-- why there are no more tokens -/
  stop : Fault
  handles : List (Text × Text) := Tag.handles
  /-- the places of the nodes that have a name -/
  anchors : Table Nat := []
  nodes : Nodes := #[]

abbrev Reading := StateT Reader (Except Fault)

namespace Reader

/-- Nodes may be nested so deep. -/
def maxDepth : Nat := 490

def peek : Reading Token := do
  let r ← get
  match r.tokens with
  | [] => throw r.stop
  | t :: _ => return t

def drop : Reading Unit := modify fun r => { r with tokens := r.tokens.drop 1 }

def expect (t : Token) : Reading Unit := do
  if (← peek) = t then drop else throw .malformed

/-! ## Anchors and tags -/

def fullTag (handle : Option Text) (suffix : Text) : Reading Text := do
  match handle with
  | none => return suffix
  | some h =>
    match (← get).handles.lookup h with
    | some t => return t ++ suffix
    | none => throw .malformed

/-- The anchor and the tag before a node, in either order. -/
def properties : Reading (Option Text × Option Text) := do
  match ← peek with
  | .anchor a =>
    drop
    match ← peek with
    | .tag h t => drop; return (some a, some (← fullTag h t))
    | _ => return (some a, none)
  | .tag h t =>
    drop
    match ← peek with
    | .anchor a => drop; return (some a, some (← fullTag h t))
    | _ => return (none, some (← fullTag h t))
  | _ => return (none, none)

/-- Lets a name that is not taken stand for a node. -/
def define (anchor : Option Text) (i : Nat) : Reading Unit := do
  if let some a := anchor then
    if (← get).anchors.has a then throw .malformed
    modify fun r => { r with anchors := r.anchors.put a i }

def add (anchor : Option Text) (n : Node) : Reading Nat := do
  let i ← modifyGet fun r => (r.nodes.size, { r with nodes := r.nodes.push n })
  define anchor i
  return i

def addEmpty : Reading Nat := add none .empty

/-- Adds a collection, which has its place and its name before its nodes are read. -/
def collection (anchor : Option Text) (tag : Text) (read : Reading Shape) : Reading Nat := do
  let i ← add anchor ⟨tag, .sequence []⟩
  let s ← read
  modify fun r => { r with nodes := r.nodes.setIfInBounds i ⟨tag, s⟩ }
  return i

/-- A tag that was given, unless it leaves the choice open. -/
def tagOr (tag : Option Text) (fallback : Text) : Text :=
  match tag with
  | none | some ['!'] => fallback
  | some t => t

def scalarTag (tag : Option Text) (t : Text) (plain : Bool) : Text :=
  match tag with
  | some ['!'] => Tag.ofPlain t
  | some tag => tag
  | none => if plain then Tag.ofPlain t else Tag.str

/-! ## Nodes -/

/-- Where a node stands: in brackets, in a list, or as a key or a value, where a list may begin at the same column. -/
inductive Where
  | flow
  | block
  | field
  deriving DecidableEq, Repr

mutual
def node (w : Where) (depth : Nat) : (fuel : Nat) → Reading Nat
  | 0 => throw .endless
  | fuel + 1 => do
    if maxDepth ≤ depth then throw .endless
    match ← peek with
    | .alias a =>
      drop
      match (← get).anchors.get? a with
      | some i => return i
      | none => throw .malformed
    | _ =>
      let (anchor, tag) ← properties
      match ← peek, w with
      | .entry, .field => collection anchor (tagOr tag Tag.seq) do
        return .sequence (← siblings (depth + 1) fuel)
      | .flowSequence, _ => collection anchor (tagOr tag Tag.seq) do
        drop
        return .sequence (← flowNodes true (depth + 1) fuel)
      | .flowMapping, _ => collection anchor (tagOr tag Tag.map) do
        drop
        return .mapping (← flowPairs true (depth + 1) fuel)
      | .blockSequence, .block | .blockSequence, .field => collection anchor (tagOr tag Tag.seq) do
        drop
        return .sequence (← blockNodes (depth + 1) fuel)
      | .blockMapping, .block | .blockMapping, .field => collection anchor (tagOr tag Tag.map) do
        drop
        return .mapping (← blockPairs (depth + 1) fuel)
      | .scalar t plain, _ =>
        drop
        add anchor ⟨scalarTag tag t plain, .scalar t⟩
      | _, _ =>
        if anchor.isNone ∧ tag.isNone then throw .malformed
        add anchor ⟨tagOr tag Tag.null, .scalar []⟩
termination_by structural fuel => fuel

/-- The node at the first token, which may be left out before some tokens. -/
def nodeBefore (ends : List Token) (w : Where) (depth : Nat) : (fuel : Nat) → Reading Nat
  | 0 => throw .endless
  | fuel + 1 => do
    if ends.contains (← peek) then addEmpty else node w depth fuel
termination_by structural fuel => fuel

def valueBefore (ends : List Token) (w : Where) (depth : Nat) : (fuel : Nat) → Reading Nat
  | 0 => throw .endless
  | fuel + 1 => do
    if (← peek) = .value then
      drop
      nodeBefore ends w depth fuel
    else addEmpty
termination_by structural fuel => fuel

/-- The nodes up to a `]`.  A key is a map of one pair. -/
def flowNodes (first : Bool) (depth : Nat) : (fuel : Nat) → Reading (List Nat)
  | 0 => throw .endless
  | fuel + 1 => do
    if (← peek) = .flowSequenceEnd then
      drop
      return []
    if !first then expect .flowEntry
    match ← peek with
    | .flowSequenceEnd =>
      drop
      return []
    | .key =>
      drop
      let k ← nodeBefore [.value, .flowEntry, .flowSequenceEnd] .flow (depth + 1) fuel
      let v ← valueBefore [.flowEntry, .flowSequenceEnd] .flow (depth + 1) fuel
      let i ← add none ⟨Tag.map, .mapping [(k, v)]⟩
      return i :: (← flowNodes false depth fuel)
    | _ =>
      let n ← node .flow depth fuel
      return n :: (← flowNodes false depth fuel)
termination_by structural fuel => fuel

def flowPairs (first : Bool) (depth : Nat) : (fuel : Nat) → Reading (List (Nat × Nat))
  | 0 => throw .endless
  | fuel + 1 => do
    if (← peek) = .flowMappingEnd then
      drop
      return []
    if !first then expect .flowEntry
    match ← peek with
    | .flowMappingEnd =>
      drop
      return []
    | .key =>
      drop
      let k ← nodeBefore [.value, .flowEntry, .flowMappingEnd] .flow depth fuel
      let v ← valueBefore [.flowEntry, .flowMappingEnd] .flow depth fuel
      return (k, v) :: (← flowPairs false depth fuel)
    | _ =>
      let k ← node .flow depth fuel
      let v ← addEmpty
      return (k, v) :: (← flowPairs false depth fuel)
termination_by structural fuel => fuel

def blockNodes (depth : Nat) : (fuel : Nat) → Reading (List Nat)
  | 0 => throw .endless
  | fuel + 1 => do
    if (← peek) = .entry then
      drop
      let n ← nodeBefore [.entry, .blockEnd] .block depth fuel
      return n :: (← blockNodes depth fuel)
    else
      expect .blockEnd
      return []
termination_by structural fuel => fuel

/-- The nodes of a list that begins at the column of its key. -/
def siblings (depth : Nat) : (fuel : Nat) → Reading (List Nat)
  | 0 => throw .endless
  | fuel + 1 => do
    if (← peek) = .entry then
      drop
      let n ← nodeBefore [.entry, .key, .value, .blockEnd] .block depth fuel
      return n :: (← siblings depth fuel)
    else return []
termination_by structural fuel => fuel

def blockPairs (depth : Nat) : (fuel : Nat) → Reading (List (Nat × Nat))
  | 0 => throw .endless
  | fuel + 1 => do
    if (← peek) = .key then
      drop
      let k ← nodeBefore [.key, .value, .blockEnd] .field depth fuel
      let v ← valueBefore [.key, .value, .blockEnd] .field depth fuel
      return (k, v) :: (← blockPairs depth fuel)
    else
      expect .blockEnd
      return []
termination_by structural fuel => fuel
end

/-! ## Documents -/

/-- The short forms of tags before a document; each may be given once, and so may the version. -/
def directives : (fuel : Nat) → (versioned : Bool) → (handles : List (Text × Text)) → Reading (List (Text × Text))
  | 0, _, handles => return handles
  | fuel + 1, versioned, handles => do
    match ← peek with
    | .version major =>
      if versioned ∨ major ≠ 1 then throw .malformed
      drop
      directives fuel true handles
    | .tagForm h t =>
      if (handles.lookup h).isSome then throw .malformed
      drop
      directives fuel versioned ((h, t) :: handles)
    | .reserved =>
      drop
      directives fuel versioned handles
    | _ => return handles

def endsDocument : Token → Bool
  | .streamEnd | .version _ | .tagForm .. | .reserved | .documentStart | .documentEnd => true
  | _ => false

def document (fuel : Nat) : Reading Nat := do
  let t ← peek
  if endsDocument t ∧ t ≠ .documentEnd then
    let handles ← directives fuel false []
    modify fun r => { r with handles := handles ++ Tag.handles }
    expect .documentStart
    if endsDocument (← peek) then return ← addEmpty
  node .block 0 fuel

/-- The document that a text is; an empty text is an empty document. -/
def only (fuel : Nat) : Reading Nat := do
  if (← peek) = .streamEnd then return ← addEmpty
  let i ← document fuel
  modify fun r => { r with tokens := r.tokens.dropWhile (· = .documentEnd) }
  expect .streamEnd
  return i

end Reader

namespace Graph

def ofText (t : Text) : Except Fault Graph := do
  let (tokens, stop) := Token.ofText t
  let r : Reader := { tokens := tokens, stop := stop.getD .malformed }
  let (root, r) ← (Reader.only (3 * tokens.length + 3)).run r
  return ⟨r.nodes, root⟩

/-- A file is read in blocks of so many characters, and the first two of them at once. -/
def blockSize : Nat := 4096

def blockStart (i : Nat) : Nat := if i < 2 * blockSize then 0 else i / blockSize * blockSize

/-- The part of a file in front of the block with a character that no text may hold. -/
def soundPart? (t : Text) : Option Text :=
  (t.findIdx? fun c => !Spot.isAllowed c).map fun i => t.take (blockStart i)

/-- The nodes of a file.  Its blocks are read when they are needed, so what is wrong in the part before a block counts
more than a character in it. -/
def ofFile (t : Text) : Except Fault Graph := do
  match soundPart? t with
  | none => ofText t
  | some part =>
    let _ ← ofText part
    throw .malformed

end Graph

end RequestRules.Yaml
