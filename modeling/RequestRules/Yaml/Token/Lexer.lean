import RequestRules.Yaml.Token.Block
import RequestRules.Yaml.Token.Mark
import RequestRules.Yaml.Token.Plain
import RequestRules.Yaml.Token.Quoted

/-!
# From text to tokens

A lexer stands at a spot and adds one token after the other.  Outside of brackets the columns decide:

* a collection begins at a column that is greater than the ones before, and ends before a line that is indented less;
* whether a node is a key shows only at the `:` behind it, so that the lexer remembers each node that may be one, on its
  line and no more than `keyReach` characters back.

A text without a value ends the tokens; those before it whose meaning is settled are kept.
-/

namespace RequestRules.Yaml

open Spot

/-- A token that may turn out to begin a key. -/
structure Candidate where
  number : Nat
  /-- nothing but a key can stand there -/
  required : Bool
  index : Nat
  line : Nat
  column : Nat
  deriving Repr

structure Lexer where
  spots : List Spot
  /-- the tokens so far, the latest first -/
  out : List Token := []
  count : Nat := 0
  flow : Nat := 0
  /-- the least column behind the column of the innermost collection, and of those around it -/
  margin : Nat := 0
  margins : List Nat := []
  keyAllowed : Bool := true
  /-- at most one candidate for each number of open brackets -/
  candidates : List (Nat × Candidate) := []

namespace Lexer

def keyReach : Nat := 1024

def ofText (t : Text) : Lexer :=
  let ss := Spot.ofText t
  { spots := if firstChar ss = '\ufeff' then ss.drop 1 else ss }

def here (l : Lexer) : Spot := l.spots.headD ⟨finalChar, 0, 0, 0⟩

def push (l : Lexer) (t : Token) : Lexer := { l with out := t :: l.out, count := l.count + 1 }

/-- Puts a token before all but the first `number` tokens. -/
def insert (l : Lexer) (number : Nat) (t : Token) : Lexer :=
  let k := l.count - number
  { l with out := l.out.take k ++ t :: l.out.drop k, count := l.count + 1 }

def skip (l : Lexer) (n : Nat) : Lexer := { l with spots := l.spots.drop n }

def allow (l : Lexer) (b : Bool) : Lexer := { l with keyAllowed := b }

def mark (l : Lexer) (n : Nat) (t : Token) : Lexer := (l.skip n).push t

/-! ## White space and comments -/

/-- The spots from the next token on, and whether a line ends before it. -/
def toToken : (comment : Bool) → List Spot → List Spot × Bool
  | _, [] => ([], false)
  | comment, s :: ss =>
    if isBreak s.char then ((toToken false ss).1, true)
    else if s.char = finalChar then (s :: ss, false)
    else if comment then toToken true ss
    else if s.char = ' ' then toToken false ss
    else if s.char = '#' then toToken true ss
    else (s :: ss, false)

def next (l : Lexer) : Lexer :=
  let (ss, broken) := toToken false l.spots
  { l with spots := ss, keyAllowed := l.keyAllowed || (broken && l.flow = 0) }

/-! ## Candidates for keys -/

def isStale (l : Lexer) (c : Candidate) : Bool := c.line ≠ l.here.line || keyReach < l.here.index - c.index

def dropStale (l : Lexer) : Except Fault Lexer :=
  if l.candidates.any fun (_, c) => l.isStale c && c.required then .error .malformed
  else .ok { l with candidates := l.candidates.filter fun (_, c) => !l.isStale c }

def candidate? (l : Lexer) : Option Candidate := l.candidates.lookup l.flow

def withoutCandidate (l : Lexer) : Lexer := { l with candidates := l.candidates.filter fun e => e.1 ≠ l.flow }

def dropCandidate (l : Lexer) : Except Fault Lexer :=
  match l.candidate? with
  | some c => if c.required then .error .malformed else .ok l.withoutCandidate
  | none => .ok l

/-- Remembers the next token if it may be a key. -/
def saveCandidate (l : Lexer) : Except Fault Lexer :=
  if l.keyAllowed then do
    let required := l.flow = 0 && l.margin = l.here.column + 1
    let l ← l.dropCandidate
    let c : Candidate := ⟨l.count, required, l.here.index, l.here.line, l.here.column⟩
    return { l with candidates := (l.flow, c) :: l.candidates }
  else .ok l

/-! ## Indentation -/

/-- Ends collections until the margin is at most `limit`. -/
def unwindTo (limit : Nat) (l : Lexer) : (margins : List Nat) → Lexer
  | [] => l
  | m :: ms => if limit < l.margin then unwindTo limit ({ l with margin := m, margins := ms }.push .blockEnd) ms else l

/-- Outside of brackets, ends the collections that begin behind the column of the spot. -/
def unwind (l : Lexer) : Lexer := if l.flow = 0 then unwindTo (l.here.column + 1) l l.margins else l

def unwindAll (l : Lexer) : Lexer := if l.flow = 0 then unwindTo 0 l l.margins else l

/-- Begins a collection at a column, before all but the first `number` tokens, unless there is one already. -/
def indent (l : Lexer) (column number : Nat) (t : Token) : Lexer :=
  if l.margin ≤ column then
    { l with margin := column + 1, margins := l.margin :: l.margins }.insert number t
  else l

/-- Outside of brackets, an entry or a key needs a place where one may begin, and begins a collection. -/
def item (l : Lexer) (t : Token) : Except Fault Lexer :=
  if l.flow ≠ 0 then .ok l
  else if !l.keyAllowed then .error .malformed
  else .ok (l.indent l.here.column l.count t)

/-! ## Tokens -/

def close (l : Lexer) : Except Fault Lexer := do return (← l.unwindAll.dropCandidate).allow false

def documentMark (l : Lexer) (t : Token) : Except Fault Lexer := do return (← l.close).mark 3 t

def openFlow (l : Lexer) (t : Token) : Except Fault Lexer := do
  let l ← l.saveCandidate
  return ({ l with flow := l.flow + 1 }.allow true).mark 1 t

def closeFlow (l : Lexer) (t : Token) : Except Fault Lexer := do
  let l ← l.dropCandidate
  return ({ l with flow := l.flow - 1 }.allow false).mark 1 t

def flowEntry (l : Lexer) : Except Fault Lexer := do return ((← l.dropCandidate).allow true).mark 1 .flowEntry

def entry (l : Lexer) : Except Fault Lexer := do
  return ((← (← l.item .blockSequence).dropCandidate).allow true).mark 1 .entry

def key (l : Lexer) : Except Fault Lexer := do
  return ((← (← l.item .blockMapping).dropCandidate).allow (l.flow = 0)).mark 1 .key

/-- A `:` makes a key of the candidate, or stands behind an empty key. -/
def value (l : Lexer) : Except Fault Lexer :=
  match l.candidate? with
  | some c =>
    let l := l.withoutCandidate.insert c.number .key
    let l := if l.flow = 0 then l.indent c.column c.number .blockMapping else l
    .ok ((l.allow false).mark 1 .value)
  | none => do
    return ((← (← l.item .blockMapping).dropCandidate).allow (l.flow = 0)).mark 1 .value

/-- A token that may be a key, from a reader that gives it and the spots behind it. -/
def node (l : Lexer) (read : List Spot → Except Fault (Token × List Spot)) : Except Fault Lexer := do
  let l ← l.saveCandidate
  let (t, rest) ← read l.spots
  return ({ l with spots := rest }.allow false).push t

def plain (l : Lexer) : Except Fault Lexer := do
  let l ← l.saveCandidate
  let (t, broken, rest) := Plain.read (l.flow ≠ 0) l.margin l.spots
  return ({ l with spots := rest }.allow broken).push (.scalar t true)

def blockScalar (l : Lexer) (folded : Bool) : Except Fault Lexer := do
  let l ← (l.allow true).dropCandidate
  let (t, rest) ← Block.read folded l.margin (l.spots.drop 1)
  return { l with spots := rest }.push (.scalar t false)

def directive (l : Lexer) : Except Fault Lexer := do
  let l ← l.close
  let (t, rest) ← Mark.directive (l.spots.drop 1)
  return { l with spots := rest }.push t

def quoted (double : Bool) (ss : List Spot) : Except Fault (Token × List Spot) := do
  let (t, rest) ← Quoted.read double (ss.drop 1)
  return (.scalar t false, rest)

def named (f : Text → Token) (ss : List Spot) : Except Fault (Token × List Spot) := do
  let (t, rest) ← Mark.name (ss.drop 1)
  return (f t, rest)

/-- The characters that no plain scalar begins with, unless some other character follows the first three of them. -/
def indicators : Text := .of "-?:,[]\x7b\x7d#&*!|>'\"%@\x60"

def atPlain (l : Lexer) : Bool :=
  let c := firstChar l.spots
  (!isGap c && !indicators.contains c) ||
    (!isGap (charAt l.spots 1) && (c = '-' || (l.flow = 0 && (c = '?' || c = ':'))))

def step (l : Lexer) : Except Fault Lexer := do
  let l := (← l.next.dropStale).unwind
  let c := firstChar l.spots
  let lineStart := l.here.column = 0
  let gap := isGap (charAt l.spots 1)
  if c = finalChar then return (← l.close).push .streamEnd
  else if c = '%' ∧ lineStart then l.directive
  else if lineStart ∧ atDocumentMark l.spots then l.documentMark (if c = '-' then .documentStart else .documentEnd)
  else if c = '[' then l.openFlow .flowSequence
  else if c = '\x7b' then l.openFlow .flowMapping
  else if c = ']' then l.closeFlow .flowSequenceEnd
  else if c = '\x7d' then l.closeFlow .flowMappingEnd
  else if c = ',' then l.flowEntry
  else if c = '-' ∧ gap then l.entry
  else if c = '?' ∧ (gap ∨ l.flow ≠ 0) then l.key
  else if c = ':' ∧ (gap ∨ l.flow ≠ 0) then l.value
  else if c = '*' then l.node (named .alias)
  else if c = '&' then l.node (named .anchor)
  else if c = '!' then l.node Mark.tag
  else if (c = '|' ∨ c = '>') ∧ l.flow = 0 then l.blockScalar (c = '>')
  else if c = '\'' ∨ c = '"' then l.node (quoted (c = '"'))
  else if l.atPlain then l.plain
  else throw .malformed

/-- The tokens that no candidate can change any more. -/
def settled (l : Lexer) : List Token :=
  let pending := l.candidates.filter fun (_, c) => !l.isStale c
  l.out.reverse.take (pending.foldl (fun n (_, c) => min n c.number) l.count)

/-- All tokens, and what ends them if it is not the end of the text. -/
def run : (fuel : Nat) → Lexer → List Token × Option Fault
  | 0, l => (l.settled, some .malformed)
  | fuel + 1, l =>
    match l.step with
    | .error f => (l.settled, some f)
    | .ok l => if l.out.head? = some .streamEnd then (l.out.reverse, none) else run fuel l

end Lexer

def Token.ofText (t : Text) : List Token × Option Fault :=
  if t.all isAllowed then let l := Lexer.ofText t; l.run (l.spots.length + 1) else ([], some .malformed)

end RequestRules.Yaml
