import Mathlib.Data.List.Infix
import RequestRules.Grammar.Segment
import RequestRules.Proofs.Grammar.Address

/-!
# Rules and how they are written

A rule for polling is written from its own fields, a rule for sending from an `Outbound.Draft`, which tells the headers
in front of the URL from those embedded in it, and holds the text behind the URL as it stands.  `Segment.Draft.render` is
the written segment and `Segment.Draft.rule` the rule that it stands for.

`Admissible` says of a draft that its written form cannot be cut elsewhere: which characters its parts must not hold, and
where the address ends.
-/

namespace RequestRules

/-- Behind no colon does the text, with a colon behind it, go on with characters of `p`, perhaps none, and a colon. -/
def Text.NoRun (p : CodePoint → Bool) (t : Text) : Prop :=
  ∀ r, .char ':' :: r <:+ t → ((r ++ [CodePoint.char ':']).dropWhile p).head? ≠ some (CodePoint.char ':')

theorem Text.noRun_iff {p : CodePoint → Bool} {t : Text} :
    t.NoRun p ↔ ∀ s ∈ t.tails, s.head? = some (.char ':') →
      ((s.tail ++ [CodePoint.char ':']).dropWhile p).head? ≠ some (.char ':') := by
  constructor
  · intro h s hs hhead
    obtain ⟨r, rfl⟩ := List.head?_eq_some_iff.1 hhead
    exact h r ((List.mem_tails _ _).1 hs)
  · intro h r hr
    exact h (':' :: r) ((List.mem_tails _ _).2 hr) rfl

instance (p : CodePoint → Bool) (t : Text) : Decidable (t.NoRun p) := decidable_of_iff' _ Text.noRun_iff

/-- The text has no `\"`. -/
def Text.Unescaped (t : Text) : Prop := t.NoPair (· == .char '\\') (· == .char '"')

instance (t : Text) : Decidable t.Unescaped := inferInstanceAs (Decidable (t.NoPair _ _))

/-- The text can stand between brackets: it is a single line, in which no `]` stands before white space. -/
def Text.Enclosable (t : Text) : Prop := .char '\n' ∉ t ∧ t.NoPair (· == .char ']') isAsciiBlank

instance (t : Text) : Decidable t.Enclosable := inferInstanceAs (Decidable (_ ∧ _))

/-! ## Rules for polling -/

namespace Inbound

/-- A backslash before every double quote. -/
def escape (t : Text) : Text := t.flatMap fun c => if c = .char '"' then ['\\', '"'] else [c]

/-- `url{headers}:interval:transformation`. -/
def render (s : Inbound) : Text :=
  s.url ++ (Header.optional s.headers ++ .char ':' :: (Numeral.ofNat s.interval ++ .char ':' :: escape s.transformation))

structure Admissible (s : Inbound) : Prop where
  enclosable : s.render.Enclosable
  url_noBrace : .char '{' ∉ s.url
  url_unescaped : s.url.Unescaped
  /-- no colon of the URL is followed by digits and a colon -/
  url_noInterval : s.url.NoRun CodePoint.isDigit
  interval : (Numeral.ofNat s.interval).length ≤ Numeral.limit
  headers : ∀ h ∈ s.headers, h.Writable
  /-- behind headers no other header fragment seems to end -/
  transformation : s.headers ≠ [] → s.transformation.NoPair (· == .char '}') (· == .char ':')

end Inbound

/-! ## Rules for sending -/

/-- The parts of a rule for sending as they are written. -/
structure Outbound.Draft where
  command : Text
  method : Text
  /-- the headers in front of the URL -/
  leading : List Header := []
  url : Text
  /-- the headers embedded at the end of the URL -/
  embedded : List Header := []
  /-- what is written behind the URL -/
  payload : Option Text := none
  deriving DecidableEq, Repr

namespace Outbound.Draft

/-- The URL with the headers embedded in it. -/
def address (d : Draft) : Text := d.url ++ Header.optional d.embedded

/-- `command:METHOD:{headers}url{headers}:payload`. -/
def render (d : Draft) : Text :=
  d.command ++ .char ':' :: (d.method ++ .char ':' :: (Header.optional d.leading ++ d.address ++ bodyPart d.payload))

/-- What the payload is taken for; only a POST has any. -/
def sent (d : Draft) : Option Payload := if d.method = post then d.payload.map Payload.classify else none

def rule (d : Draft) : Outbound where
  command := d.command
  method := d.method
  url := d.url
  headers := d.leading ++ d.embedded
  body := d.sent.bind Payload.body?
  transformation := d.sent.bind Payload.transformation?

structure Admissible (d : Draft) : Prop where
  enclosable : d.render.Enclosable
  /-- no colon of the command is followed by capital letters and a colon -/
  command : d.command.NoRun CodePoint.isUpper
  method : ∀ c ∈ d.method, c.isUpper = true
  url : d.url ≠ []
  unescaped : (Header.optional d.leading ++ d.address).Unescaped
  payload_unescaped : d.method = post → ∀ t ∈ d.payload, t.Unescaped
  leading : ∀ h ∈ d.leading, h.Writable ∧ .char '}' ∉ h.1 ∧ .char '}' ∉ h.2
  /-- the URL does not seem to be such headers -/
  noLeading : d.leading = [] → d.url.head? = some (.char '{') → .char '}' ∉ d.address ++ bodyPart d.payload
  embedded : ∀ h ∈ d.embedded, h.Writable ∧ .char '}' ∉ h.1 ∧ .char '}' ∉ h.2
  embedded_head : ∀ h ∈ d.embedded.head?, h.1.head? ≠ some (.char '{')
  url_bare : d.embedded ≠ [] → .char '{' ∉ d.url ∧ .char '}' ∉ d.url
  url_plain : d.embedded = [] → d.url.getLast? ≠ some (.char '}')
  /-- the URL and the headers embedded in it are an address, and the payload does not go on with it -/
  address_ends : ∃ a : Address, a.render = d.address ∧ a.EndsBefore (bodyPart d.payload)

end Outbound.Draft

/-! ## Segments -/

namespace Segment

inductive Draft
  | inbound (s : Inbound)
  | outbound (d : Outbound.Draft)

namespace Draft

def direction : Draft → Direction
  | inbound _ => .inbound
  | outbound _ => .outbound

def inner : Draft → Text
  | inbound s => s.render
  | outbound d => d.render

def rule : Draft → Segment
  | inbound s => .inbound s
  | outbound d => .outbound d.rule

def Admissible : Draft → Prop
  | inbound s => s.Admissible
  | outbound d => d.Admissible

/-- The inner text in brackets behind its mark. -/
def render (d : Draft) : Text := d.direction.mark :: '[' :: (d.inner ++ [.char ']'])

end Draft

def renderAll (ds : List Draft) : Text := Text.join [' '] (ds.map Draft.render)

end Segment

end RequestRules
