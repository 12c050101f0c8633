import RequestRules.Grammar.Address
import RequestRules.Grammar.Header
import RequestRules.Grammar.Transformation
import RequestRules.Number.Numeral
import RequestRules.Text.Blank

/-!
# Segments

A configuration text is a sequence of segments, each in brackets behind its direction:

* `<[url{headers}:interval:transformation]`, an `Inbound` rule: a URL that is polled;
* `>[command:METHOD:{headers}url{headers}:body]`, an `Outbound` rule: a request that a command causes.

`Direction.segments` cuts a configuration text into directions and inner texts, `Inbound.read` and `Outbound.read` read
an inner text, and `Segment.readAll` does both.
-/

namespace RequestRules

/-! ## Rules as written -/

structure Inbound where
  url : Text
  headers : List Header := []
  interval : Nat := 0
  transformation : Text := []
  deriving DecidableEq, Repr

/-- A rule for sending; the command is still a word of the configuration. -/
structure Outbound where
  command : Text
  method : Text
  url : Text
  headers : List Header := []
  body : Option Text := none
  transformation : Option Text := none
  deriving DecidableEq, Repr

inductive Segment
  | inbound (s : Inbound)
  | outbound (s : Outbound)
  deriving DecidableEq, Repr

inductive SegmentError
  | grammar (e : GrammarError)
  | longInterval (digits : Nat)
  deriving DecidableEq, Repr

/-! ## Cutting a configuration text -/

inductive Direction
  | inbound
  | outbound
  deriving DecidableEq, Repr

namespace Direction

def mark : Direction → CodePoint
  | inbound => '<'
  | outbound => '>'

def isMark (c : CodePoint) : Bool := c = '<' || c = '>'

def ofText : Text → Except GrammarError Direction
  | ['<'] => .ok inbound
  | ['>'] => .ok outbound
  | t => .error (.direction t)

/-- The text up to the first `]` before white space or the end, on one line, and what follows that white space. -/
def closing? : Text → Option (Text × Text)
  | [] => none
  | c :: t =>
    if c = '\n' then none
    else if c = ']' then
      match t with
      | [] => some ([], [])
      | b :: r => if isAsciiBlank b then some ([], r) else (closing? t).map fun (i, r) => (c :: i, r)
    else (closing? t).map fun (i, r) => (c :: i, r)

/-- A segment at the front of a text: its mark, the inner text, and what follows. -/
def opening? : Text → Option (CodePoint × Text × Text)
  | c :: '[' :: t => if isMark c then (closing? t).map fun (inner, r) => (c, inner, r) else none
  | _ => none

theorem closing?_length {t i r : Text} (h : closing? t = some (i, r)) : r.length ≤ t.length := by
  fun_induction closing? t generalizing i r with
  | case1 => simp at h
  | case2 => simp at h
  | case3 => simp at h; simp [← h.2]
  | case4 => simp at h; simp [← h.2]; omega
  | case5 b r' _ _ ih =>
    obtain ⟨⟨i', r''⟩, h', e⟩ := Option.map_eq_some_iff.1 h
    simp only [Prod.mk.injEq] at e
    have := ih h'
    simp only [List.length_cons] at this ⊢
    rw [← e.2]; omega
  | case6 c t _ _ ih =>
    obtain ⟨⟨i', r''⟩, h', e⟩ := Option.map_eq_some_iff.1 h
    simp only [Prod.mk.injEq] at e
    have := ih h'
    simp only [List.length_cons]
    rw [← e.2]; omega

theorem opening?_length {t i r : Text} {c : CodePoint} (h : opening? t = some (c, i, r)) :
    r.length < t.length := by
  unfold opening? at h
  split at h
  · next c' t' =>
    split at h
    · obtain ⟨⟨i', r'⟩, h', e⟩ := Option.map_eq_some_iff.1 h
      simp only [Prod.mk.injEq] at e
      have := closing?_length h'
      simp only [List.length_cons]
      rw [← e.2.2]; omega
    · simp at h
  · simp at h

/-- The segments found from left to right; a character that starts none is passed over. -/
def scan (t : Text) : Except GrammarError (List (Direction × Text)) :=
  match _h : opening? t with
  | some (c, i, r) => do
    let d ← ofText [c]
    let ds ← scan r
    return (d, i) :: ds
  | none =>
    match t with
    | [] => .ok []
    | _ :: t => scan t
termination_by t.length
decreasing_by
  · exact opening?_length _h
  · simp

/-- A text that begins with an opened segment and ends with a closing bracket, perhaps before one blank character, all
on one line but for that blank. -/
def isSequence : Text → Bool
  | c :: '[' :: t =>
    isMark c &&
      match t.reverse with
      | ']' :: inner => !inner.contains '\n'
      | b :: ']' :: inner => isAsciiBlank b && !inner.contains '\n'
      | _ => false
  | _ => false

def segments (t : Text) : Except GrammarError (List (Direction × Text)) :=
  if isSequence t then scan t else .error (.configuration t)

end Direction

/-! ## Inbound segments -/

namespace Inbound

/-- `:digits:transformation`, where the first colon begins no `://`. -/
def tail? : Text → Option (Text × Text)
  | ':' :: t =>
    if (Text.of "//").isPrefixOf t then none
    else Text.run? CodePoint.isDigit ':' t
  | _ => none

/-- The longest part that ends in `}` before a tail, and that tail. -/
def longestHeader? : Text → Option (Text × Text × Text)
  | [] => none
  | c :: t =>
    match longestHeader? t with
    | some (h, tail) => some (c :: h, tail)
    | none => if c = '}' then (tail? t).map fun tail => ([c], tail) else none

structure Parts where
  url : Text
  header : Option Text
  digits : Text
  transformation : Text
  deriving DecidableEq, Repr

/-- The parts with the shortest URL, with a header fragment if that can be, and then the longest. -/
def parts? : Text → Option Parts
  | [] => none
  | c :: t =>
    match (if c = '{' then longestHeader? t else none) with
    | some (h, digits, transformation) => some ⟨[], some (c :: h), digits, transformation⟩
    | none =>
      match tail? (c :: t) with
      | some (digits, transformation) => some ⟨[], none, digits, transformation⟩
      | none => (parts? t).map fun p => { p with url := c :: p.url }

def read (t : Text) : Except SegmentError Inbound :=
  match (if t.contains '\n' then none else parts? t) with
  | none => .error (.grammar (.inbound t))
  | some p =>
    if p.digits.isEmpty then .error (.grammar (.interval t))
    else if Numeral.limit < p.digits.length then .error (.longInterval p.digits.length)
    else .ok {
      url := p.url.replace (.of "\\\"") []
      headers := Header.parseOption p.header
      interval := Numeral.value p.digits
      transformation := p.transformation.replace (.of "\\\"") ['"'] }

end Inbound

/-! ## Outbound segments -/

namespace Outbound

/-- `METHOD:rest`, the method in capital letters. -/
def method? (t : Text) : Option (Text × Text) := t.run? CodePoint.isUpper ':'

def parts? : Text → Option (Text × Text × Text)
  | [] => none
  | c :: t =>
    match (if c = ':' then method? t else none) with
    | some (m, r) => some ([], m, r)
    | none => (parts? t).map fun (k, p) => (c :: k, p)

/-- A leading header fragment, up to the first `}`, and the rest. -/
def takeLeading (t : Text) : List Header × Text :=
  if t.head? = some (.char '{') then
    match t.cut? '}' with
    | some (inner, r) => (Header.parse (inner ++ [.char '}']), r)
    | none => ([], t)
  else ([], t)

def post : Text := .of "POST"

def read (t : Text) : Except GrammarError Outbound := do
  match (if t.contains '\n' then none else parts? t) with
  | none => .error (.outbound t)
  | some (command, method, r) =>
    let (leading, r) := takeLeading (r.replace (.of "\\\"") [])
    let target ← Target.read r
    let payload := if method = post then target.body.map Payload.classify else none
    return {
      command, method
      url := target.url
      headers := leading ++ Header.parseOption target.fragment
      body := payload.bind Payload.body?
      transformation := payload.bind Payload.transformation? }

end Outbound

/-! ## Whole configuration texts -/

namespace Segment

def read : Direction × Text → Except SegmentError Segment
  | (.inbound, t) => (Inbound.read t).map inbound
  | (.outbound, t) => ((Outbound.read t).mapError SegmentError.grammar).map outbound

/-- The rules of a configuration text, in order; the first faulty segment is reported. -/
def readAll (t : Text) : Except SegmentError (List Segment) := do
  let parts ← (Direction.segments t).mapError SegmentError.grammar
  parts.mapM read

end Segment

end RequestRules
