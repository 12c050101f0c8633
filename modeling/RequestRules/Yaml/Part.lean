import RequestRules.Setting
import RequestRules.Yaml.Tag

/-!
# Parts

What is made of the nodes of a document: of each node a part, under the place of the node.  A collection holds the
places of its parts.  `Parts.setting` makes a setting of them, in which a collection that holds itself stands once
inside of itself.
-/

namespace RequestRules.Yaml

inductive Part
  | whole (s : Setting)
  | list (items : List Nat)
  | pairs (entries : List (Nat × Nat))
  | set (entries : List (Nat × Nat))
  | map (entries : List (Nat × Nat))
  deriving Repr

/-- The parts by their places; there may be none yet. -/
abbrev Parts := Array (Option Part)

namespace Part

/-- A collection with nothing in it, if the tag is one of a collection. -/
def empty? (tag : Text) : Option Part :=
  if tag = Tag.seq then some (.list [])
  else if tag = Tag.omap ∨ tag = Tag.pairs then some (.pairs [])
  else if tag = Tag.set then some (.set [])
  else if tag = Tag.map then some (.map [])
  else none

def isKey : Part → Bool
  | whole s => s.isKey
  | list _ | pairs _ | set _ | map _ => false

end Part

namespace Parts

def part? (ps : Parts) (i : Nat) : Option Part := ps.getD i none

def sameKey (ps : Parts) (i j : Nat) : Bool :=
  i = j ||
    match ps.part? i, ps.part? j with
    | some (.whole a), some (.whole b) => Setting.sameScalar a b
    | _, _ => false

/-- The entries with `v` under `k`.  A key that is there already stays as and where it is. -/
def put (ps : Parts) : List (Nat × Nat) → Nat → Nat → List (Nat × Nat)
  | [], k, v => [(k, v)]
  | (l, w) :: es, k, v => if ps.sameKey k l then (l, v) :: es else (l, w) :: put ps es k v

/-- The part at a place as a setting; `path` lists the collections around it. -/
def unfold (ps : Parts) : (fuel : Nat) → (path : List Nat) → Nat → Setting
  | 0, _, _ => .endless
  | fuel + 1, path, i =>
    if 2 ≤ path.count i then .endless
    else
      let inner := unfold ps fuel (i :: path)
      match ps.part? i with
      | none => .endless
      | some (.whole s) => s
      | some (.list is) => .list (is.map inner)
      | some (.pairs es) => .list (es.map fun e => .pair (inner e.1) (inner e.2))
      | some (.set es) => .set (es.map fun e => inner e.1)
      | some (.map es) => .map (es.map fun e => (inner e.1, inner e.2))

/-- The part at a place as a setting.  No collection is around another more than twice. -/
def setting (ps : Parts) (i : Nat) : Setting := unfold ps (2 * ps.size + 1) [] i

end Parts

end RequestRules.Yaml
