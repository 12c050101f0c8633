import RequestRules.Descriptor
import RequestRules.Json

/-!
# Documents

A document is what can be written as JSON: plain values, and among them, at any depth, the values of this library.
`Document.plain?` replaces each of those by its plain form; a foreign object has none, and an integer of too many digits
cannot be written.
-/

namespace RequestRules

/-! ## Plain forms -/

/-- A word as its text, a color as a list, any other value as its written form. -/
def Value.plain : Value → Json
  | .color h s b => .list [.int h, .int s, .int b]
  | v => .text v.render

def Key.plain : Key → Json
  | .command v => v.plain
  | k => .text k.render

def Json.ofOption : Option Text → Json
  | none => .null
  | some t => .text t

def Header.plain (hs : List Header) : Json :=
  .list (hs.map fun (k, v) => .list [.text k, .text v])

def Request.plain (r : Request) : Json :=
  .object [
    (.of "url", .text r.url),
    (.of "http_method", .ofOption r.method),
    (.of "headers", Header.plain r.headers),
    (.of "refresh_interval", .int r.interval),
    (.of "transformation", .ofOption r.transformation),
    (.of "body", .ofOption r.body)]

def ValueKind.plainList (ks : List ValueKind) : Json := .list (ks.map fun k => .text k.name)

/-- An entry with the kind of its key, so that a command and a mark of one text stay apart. -/
def Descriptor.plainEntry (e : Key × Request) : Json :=
  .object [
    (.of "key", .text e.1.render),
    (.of "kind", .text e.1.kindName),
    (.of "element", e.2.plain)]

def Descriptor.plain (d : Descriptor) : Json :=
  .object [
    (.of "item", .text d.item),
    (.of "accepted_data_types", ValueKind.plainList d.states),
    (.of "elements", .list (d.entries.map Descriptor.plainEntry))]

/-! ## Documents -/

inductive Document
  | null
  | bool (b : Bool)
  | int (n : Int)
  | real (x : Binary64)
  | text (t : Text)
  | list (xs : List Document)
  | object (fields : List (Text × Document))
  | key (k : Key)
  | moment (m : Moment)
  | request (r : Request)
  | descriptor (d : Descriptor)
  /-- an object that has no plain form -/
  | foreign
  deriving Repr

namespace Document

mutual
def plain? : Document → Option Json
  | null => some .null
  | bool b => some (.bool b)
  | int n => some (.int n)
  | real x => some (.real x)
  | text t => some (.text t)
  | list xs => (plainItems? xs).map .list
  | object fs => (plainFields? fs).map .object
  | key k => some k.plain
  | moment m => some (.text m.render)
  | request r => some r.plain
  | descriptor d => some d.plain
  | foreign => none
def plainItems? : List Document → Option (List Json)
  | [] => some []
  | x :: xs => do return (← plain? x) :: (← plainItems? xs)
def plainFields? : List (Text × Document) → Option (List (Text × Json))
  | [] => some []
  | (k, v) :: fs => do return (k, ← plain? v) :: (← plainFields? fs)
end

inductive Fault
  | foreign
  | longInt
  deriving DecidableEq, Repr

def Fault.ofPlain? (j : Json) : Option Fault := if j.isShort then none else some .longInt

mutual
/-- The first fault on the way through a document, along its fields in order if they are to be. -/
def fault? (sort : Bool) : Document → Option Fault
  | int n => Fault.ofPlain? (.int n)
  | list xs => faultOfItems? sort xs
  | object fs => (Json.inOrder sort (faultsOfFields sort fs)).findSome? (·.2)
  | key k => Fault.ofPlain? k.plain
  | request r => Fault.ofPlain? r.plain
  | descriptor d => Fault.ofPlain? d.plain
  | foreign => some .foreign
  | null | bool _ | real _ | text _ | moment _ => none
def faultOfItems? (sort : Bool) : List Document → Option Fault
  | [] => none
  | x :: xs => fault? sort x <|> faultOfItems? sort xs
def faultsOfFields (sort : Bool) : List (Text × Document) → List (Text × Option Fault)
  | [] => []
  | (k, v) :: fs => (k, fault? sort v) :: faultsOfFields sort fs
end

/-- What is written of a document: its plain form, with the fields in order if they are to be. -/
def render (indent : Option Text) (sort : Bool) (d : Document) : Except Fault Text :=
  match d.fault? sort, d.plain? with
  | none, some j => .ok ((j.arranged sort).render indent)
  | e, _ => .error (e.getD .foreign)

end Document

end RequestRules
