import RequestRules.Yaml.Fault
import RequestRules.Yaml.Spot

/-!
# Block scalars

A block scalar is the lines behind `|` or `>` that are indented enough.  Behind `|` the line breaks stay, behind `>`
they are folded between lines that begin with no white space.  `+` keeps the breaks at the end, `-` drops them all.
-/

namespace RequestRules.Yaml.Block

open Spot

inductive Chomping
  | strip
  | clip
  | keep
  deriving DecidableEq, Repr

def chomping? (c : CodePoint) : Option Chomping :=
  if c = '+' then some .keep else if c = '-' then some .strip else none

def step? (c : CodePoint) : Option Nat := if c.isDigit ∧ c ≠ '0' then some (c.toNat - 0x30) else none

/-- The chomping and the indentation that are given, in either order, and the spots behind the line. -/
def header (ss : List Spot) : Except Fault (Chomping × Option Nat × List Spot) :=
  let (chomping, step, rest) :=
    match chomping? (firstChar ss), step? (firstChar ss) with
    | some c, _ =>
      match step? (charAt ss 1) with
      | some n => (c, some n, ss.drop 2)
      | none => (c, none, ss.drop 1)
    | none, some n =>
      match chomping? (charAt ss 1) with
      | some c => (c, some n, ss.drop 2)
      | none => (.clip, some n, ss.drop 1)
    | none, none => (.clip, none, ss)
  if !endsWord (firstChar rest) then .error .malformed
  else match endLine? rest with
    | some rest => .ok (chomping, step, rest)
    | none => .error .malformed

/-- The breaks before the first line, and the greatest column that their spaces reach. -/
def leading : (widest : Nat) → List Spot → Text × Nat × List Spot
  | widest, [] => ([], widest, [])
  | widest, s :: ss =>
    if s.char = ' ' then leading (max widest (s.column + 1)) ss
    else if isBreak s.char then let (t, w, rest) := leading widest ss; (s.char :: t, w, rest)
    else ([], widest, s :: ss)

/-- The breaks of empty lines; up to `indent` spaces of a line are passed over. -/
def breaks (indent : Nat) : List Spot → Text × List Spot
  | [] => ([], [])
  | s :: ss =>
    if s.char = ' ' ∧ s.column < indent then breaks indent ss
    else if isBreak s.char then let (t, rest) := breaks indent ss; (s.char :: t, rest)
    else ([], s :: ss)

def atLine (indent : Nat) (ss : List Spot) : Bool := firstColumn ss = indent ∧ firstChar ss ≠ finalChar

/-- The lines behind some breaks, then the break of the last line, the breaks behind it, and the spots behind those. -/
def lines (folded : Bool) (indent : Nat) : (fuel : Nat) → (before : Text) → List Spot → Text × Text × Text × List Spot
  | 0, before, ss => ([], [], before, ss)
  | fuel + 1, before, ss =>
    let (line, rest) := takeWhile (fun c => !endsLine c) ss
    let (newline, rest) := takeBreak rest
    let (further, rest) := breaks indent rest
    if atLine indent rest then
      let folds := folded && newline = [.char '\n'] && !isSpaceOrTab (firstChar ss) && !isSpaceOrTab (firstChar rest)
      let joint := if folds then if further.isEmpty then [.char ' '] else [] else newline
      let (t, last) := lines folded indent fuel further rest
      (before ++ line ++ joint ++ t, last)
    else (before ++ line, newline, further, rest)

/-- The scalar behind `|` or `>`, and the spots behind it; `margin` is the least column of a line. -/
def read (folded : Bool) (margin : Nat) (ss : List Spot) : Except Fault (Text × List Spot) := do
  let (chomping, step, rest) ← header ss
  let least := max margin 1
  let (before, indent, rest) : Text × Nat × List Spot := match step with
    | some n => let (t, rest) := breaks (least + n - 1) rest; (t, least + n - 1, rest)
    | none => let (t, widest, rest) := leading 0 rest; (t, max least widest, rest)
  let (t, newline, further, rest) :=
    if atLine indent rest then lines folded indent rest.length before rest else ([], [], before, rest)
  match chomping with
  | .strip => return (t, rest)
  | .clip => return (t ++ newline, rest)
  | .keep => return (t ++ newline ++ further, rest)

end RequestRules.Yaml.Block
