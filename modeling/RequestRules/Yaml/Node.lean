import RequestRules.Yaml.Tag

/-!
# Nodes

A node is a text, a list, or a list of pairs, and has a tag.  A tag says what a node denotes; a plain scalar without one
denotes what it looks like.

The nodes of a document stand in a table, and a collection holds the places of its nodes there.  So two collections may
hold one node, and a collection may hold itself.
-/

namespace RequestRules.Yaml

inductive Shape
  | scalar (t : Text)
  | sequence (nodes : List Nat)
  | mapping (entries : List (Nat × Nat))
  deriving DecidableEq, Repr

structure Node where
  tag : Text
  shape : Shape
  deriving DecidableEq, Repr

namespace Node

def empty : Node := ⟨Tag.null, .scalar []⟩

def text? (n : Node) : Option Text :=
  match n.shape with
  | .scalar t => some t
  | .sequence _ | .mapping _ => none

def entries? (n : Node) : Option (List (Nat × Nat)) :=
  match n.shape with
  | .mapping es => some es
  | .scalar _ | .sequence _ => none

end Node

abbrev Nodes := Array Node

namespace Nodes

def node (g : Nodes) (i : Nat) : Node := g.getD i .empty

/-- The place under the first key with a tag, and the entries before and behind it. -/
def cutAt? (g : Nodes) (tag : Text) : List (Nat × Nat) → Option (List (Nat × Nat) × Nat × List (Nat × Nat))
  | [] => none
  | (k, v) :: es =>
    if (g.node k).tag = tag then some ([], v, es)
    else (cutAt? g tag es).map fun (front, w, back) => ((k, v) :: front, w, back)

end Nodes

structure Graph where
  nodes : Nodes
  root : Nat
  deriving Repr

end RequestRules.Yaml
