import RequestRules.Command
import RequestRules.Item
import RequestRules.Request

/-!
# Descriptors

A descriptor holds the requests of one item by their keys, in order, and the states that a polled value can be.  Of two
entries with one key the later counts, in the later place (`Descriptor.ofEntries`).  `Descriptor.resolve` finds the
request for a command, and falls back to the wildcard.  `Descriptor.parse` reads a configuration text for an item.
-/

namespace RequestRules

structure Descriptor where
  item : Text
  states : List ValueKind
  entries : List (Key × Request)
  deriving DecidableEq, Repr

inductive Rejection
  | grammar (e : GrammarError)
  | command (e : CommandError)
  deriving DecidableEq, Repr

def Rejection.message : Rejection → Text
  | grammar e => e.message
  | command e => e.message

/-- Why there is no descriptor: a rejected text, an interval of too many digits, or a request with a transformation and
a body. -/
inductive DescriptorError
  | rejected (r : Rejection)
  | longInterval (digits : Nat)
  | bothGiven
  deriving DecidableEq, Repr

def DescriptorError.message : DescriptorError → Text
  | rejected r => r.message
  | longInterval n => Numeral.tooLong n
  | bothGiven => Request.bothGiven

namespace Descriptor

/-! ## Entries -/

def without (k : Key) (es : List (Key × Request)) : List (Key × Request) :=
  es.filter fun e => ¬ e.1.Same k

/-- The entries with one more, behind all others; it replaces an entry of the same key. -/
def put (es : List (Key × Request)) (e : Key × Request) : List (Key × Request) :=
  without e.1 es ++ [e]

def ofEntries (item : Text) (states : List ValueKind) (es : List (Key × Request)) : Descriptor :=
  ⟨item, states, es.foldl put []⟩

def get? (d : Descriptor) (k : Key) : Option Request :=
  (d.entries.find? fun e => e.1.Same k).map (·.2)

def contains (d : Descriptor) (k : Key) : Bool := (d.get? k).isSome

/-- The request for a command: the one with its key, else the wildcard's, which stands for neither changes of state nor
polling. -/
def resolve (d : Descriptor) (k : Key) : Option Request :=
  match d.get? k with
  | some r => some r
  | none =>
    match k with
    | .changed | .inbound => none
    | .wildcard | .command _ => d.get? .wildcard

def inbound (d : Descriptor) : Option Request := d.get? .inbound

def readState? (d : Descriptor) (t : Text) : Option Value := Value.readAny? d.states t

def keys (d : Descriptor) : List Key := d.entries.map (·.1)

def render (d : Descriptor) : Text :=
  .of "<BindingDescriptor item=" ++ d.item ++ .of " keys=" ++ Text.quotedList (d.keys.map Key.render) ++ [.char '>']

/-! ## Reading a configuration text -/

def filed (k : Key) : Option Request → Except DescriptorError (Key × Request)
  | some r => .ok (k, r)
  | none => .error .bothGiven

def entry (commands : List ValueKind) : Segment → Except DescriptorError (Key × Request)
  | .inbound s => filed .inbound (Request.ofInbound s).check?
  | .outbound s => do
    let k ← (Key.resolve s.command commands).mapError fun e => .rejected (.command e)
    filed k (Request.ofOutbound? s)

def ofSegmentError : SegmentError → DescriptorError
  | .grammar e => .rejected (.grammar e)
  | .longInterval n => .longInterval n

def parse (item : Item) (text : Text) : Except DescriptorError Descriptor := do
  let segments ← (Segment.readAll text).mapError ofSegmentError
  let es ← segments.mapM (entry item.type.commands)
  return ofEntries item.name item.type.states es

end Descriptor

end RequestRules
