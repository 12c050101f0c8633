import RequestRules.Number.Hexadecimal
import RequestRules.Yaml.Fault
import RequestRules.Yaml.Spot

/-!
# Quoted scalars

Between single quotes only the quote is written twice.  Between double quotes a backslash begins an escape, and at the
end of a line it joins the lines.  Line breaks are folded in both.
-/

namespace RequestRules.Yaml.Quoted

open Spot

def breaks : (lineStart : Bool) → List Spot → Except Fault (Text × List Spot)
  | _, [] => .ok ([], [])
  | lineStart, s :: ss =>
    if lineStart && atDocumentMark (s :: ss) then .error .malformed
    else if isSpaceOrTab s.char then breaks false ss
    else if isBreak s.char then do
      let (t, rest) ← breaks true ss
      return (s.char :: t, rest)
    else .ok ([], s :: ss)

def gap (ss : List Spot) : Except Fault (Text × List Spot) :=
  match takeWhile isSpaceOrTab ss with
  | (_, []) => .error .malformed
  | (blanks, s :: rest) =>
    if s.char = finalChar then .error .malformed
    else if isBreak s.char then do
      let (t, rest) ← breaks true rest
      return (fold s.char t, rest)
    else .ok (blanks, s :: rest)

/-! ## Escapes -/

def short? (c : CodePoint) : Option CodePoint :=
  match c with
  | '0' => some (.char '\x00')
  | 'a' => some (.char '\x07')
  | 'b' => some (.char '\x08')
  | 't' | '\t' => some (.char '\t')
  | 'n' => some (.char '\n')
  | 'v' => some (.char '\x0b')
  | 'f' => some (.char '\x0c')
  | 'r' => some (.char '\r')
  | 'e' => some (.char '\x1b')
  | ' ' | '"' | '\\' | '/' => some c
  | 'N' => some (.char '\x85')
  | '_' => some (.char '\xa0')
  | 'L' => some (.char '\u2028')
  | 'P' => some (.char '\u2029')
  | _ => none

def width? (c : CodePoint) : Option Nat :=
  if c = 'x' then some 2 else if c = 'u' then some 4 else if c = 'U' then some 8 else none

/-- The number of an escape behind its backslash, and the spots behind it. -/
def code? (ss : List Spot) : Option (Nat × List Spot) := do
  let width ← width? (firstChar ss)
  let digits := (ss.drop 1).take width
  let n ← hexValue? (digits.map Spot.char)
  if digits.length = width then some (n, ss.drop (width + 1)) else none

/-- The code point of an escaped number.  Two surrogates stay two code points. -/
def escaped (n : Nat) : Except Fault CodePoint :=
  if 0x80000000 ≤ n then .error .hugeCode
  else if 0x110000 ≤ n then .error .noCharacter
  else .ok (.ofNat n)

def escape (ss : List Spot) : Except Fault (Text × List Spot) :=
  match ss with
  | [] => .error .malformed
  | s :: rest =>
    match short? s.char with
    | some c => .ok ([c], rest)
    | none =>
      if isBreak s.char then breaks true rest
      else match code? ss with
        | some (n, rest) => do return ([← escaped n], rest)
        | none => .error .malformed

/-! ## The scalar -/

def body (double : Bool) : (fuel : Nat) → List Spot → Except Fault (Text × List Spot)
  | fuel + 1, s :: ss => do
    if isGap s.char then
      let (g, rest) ← gap (s :: ss)
      let (t, rest) ← body double fuel rest
      return (g ++ t, rest)
    else if double ∧ s.char = '\\' then
      let (e, rest) ← escape ss
      let (t, rest) ← body double fuel rest
      return (e ++ t, rest)
    else if !double ∧ s.char = '\'' ∧ firstChar ss = '\'' then
      let (t, rest) ← body double fuel (ss.drop 1)
      return ('\'' :: t, rest)
    else if s.char = if double then '"' else '\'' then return ([], ss)
    else
      let (t, rest) ← body double fuel ss
      return (s.char :: t, rest)
  | _, _ => .error .malformed

def read (double : Bool) (ss : List Spot) : Except Fault (Text × List Spot) := body double (ss.length + 1) ss

end RequestRules.Yaml.Quoted
