import RequestRules.Number.Hexadecimal
import RequestRules.Yaml.Fault
import RequestRules.Yaml.Spot
import RequestRules.Yaml.Token

/-!
# Names, tags and directives

The names of anchors, the tags, and the lines that begin with `%`.  A tag is written in full between `<` and `>`, or in
a short form behind a handle; bytes can be written as `%` and two digits.
-/

namespace RequestRules.Yaml.Mark

open Spot

/-! ## Names -/

def endsName (c : CodePoint) : Bool :=
  isGap c || c = '?' || c = ':' || c = ',' || c = ']' || c = '\x7d' || c = '%' || c = '@' || c = '\x60'

def name (ss : List Spot) : Except Fault (Text × List Spot) :=
  let (t, rest) := takeWhile isNameChar ss
  if t.isEmpty ∨ !endsName (firstChar rest) then .error .malformed else .ok (t, rest)

/-! ## Tags -/

def isTagChar (c : CodePoint) : Bool := c.isAlphanum || (Text.of "-;/?:@&=+$,_.!~*'()[]%").contains c

def byte? (ss : List Spot) : Option Nat :=
  if firstChar ss = '%' then hexValue? [charAt ss 1, charAt ss 2] else none

def bytes : (fuel : Nat) → List Spot → Except Fault (List UInt8 × List Spot)
  | 0, ss => .ok ([], ss)
  | fuel + 1, ss =>
    if firstChar ss ≠ '%' then .ok ([], ss)
    else match byte? ss with
      | none => .error .malformed
      | some b => do
        let (bs, rest) ← bytes fuel (ss.drop 3)
        return (UInt8.ofNat b :: bs, rest)

def decode? (bs : List UInt8) : Option Text := (String.fromUTF8? ⟨bs.toArray⟩).map Text.of

/-- The characters of a tag; a run of bytes is read as a whole. -/
def tagText : (fuel : Nat) → List Spot → Except Fault (Text × List Spot)
  | 0, ss => .ok ([], ss)
  | fuel + 1, ss =>
    if firstChar ss = '%' then do
      let (bs, rest) ← bytes ss.length ss
      match decode? bs with
      | none => .error .malformed
      | some t =>
        let (u, rest) ← tagText fuel rest
        return (t ++ u, rest)
    else if isTagChar (firstChar ss) then do
      let (u, rest) ← tagText fuel (ss.drop 1)
      return (firstChar ss :: u, rest)
    else .ok ([], ss)

def suffix (ss : List Spot) : Except Fault (Text × List Spot) := do
  let (t, rest) ← tagText ss.length ss
  if t.isEmpty then .error .malformed else return (t, rest)

/-- A handle: `!`, `!!`, or a name between two `!`. -/
def handle (ss : List Spot) : Except Fault (Text × List Spot) :=
  if firstChar ss ≠ '!' then .error .malformed
  else if charAt ss 1 = ' ' then .ok (['!'], ss.drop 1)
  else
    let (t, rest) := takeWhile isNameChar (ss.drop 1)
    if firstChar rest = '!' then .ok (.char '!' :: t ++ [.char '!'], rest.drop 1) else .error .malformed

/-- The word at the first spot has a `!` behind its first character. -/
def hasHandle (ss : List Spot) : Bool := ((takeWhile (fun c => !endsWord c) (ss.drop 1)).1).contains '!'

def tag (ss : List Spot) : Except Fault (Token × List Spot) := do
  let (t, rest) ←
    if charAt ss 1 = '<' then do
      let (t, rest) ← suffix (ss.drop 2)
      if firstChar rest = '>' then pure (Token.tag none t, rest.drop 1) else throw Fault.malformed
    else if isGap (charAt ss 1) then pure (Token.tag none ['!'], ss.drop 1)
    else do
      let (h, rest) ← if hasHandle ss then handle ss else pure (['!'], ss.drop 1)
      let (t, rest) ← suffix rest
      pure (Token.tag (some h) t, rest)
  if endsWord (firstChar rest) then return (t, rest) else throw .malformed

/-! ## Directives -/

def versionNumber (ss : List Spot) : Except Fault (Nat × List Spot) :=
  let (t, rest) := takeWhile CodePoint.isDigit ss
  if t.isEmpty then .error .malformed else .ok (Numeral.value t, rest)

def version (ss : List Spot) : Except Fault (Token × List Spot) := do
  let (major, rest) ← versionNumber (skipSpaces ss)
  if firstChar rest ≠ '.' then throw .malformed
  let (_, rest) ← versionNumber (rest.drop 1)
  if endsWord (firstChar rest) then return (.version major, rest) else throw .malformed

def tagForm (ss : List Spot) : Except Fault (Token × List Spot) := do
  let (h, rest) ← handle (skipSpaces ss)
  if firstChar rest ≠ ' ' then throw .malformed
  let (t, rest) ← suffix (skipSpaces rest)
  if endsWord (firstChar rest) then return (.tagForm h t, rest) else throw .malformed

/-- The directive behind a `%`, and the spots behind its line. -/
def directive (ss : List Spot) : Except Fault (Token × List Spot) := do
  let (t, rest) := takeWhile isNameChar ss
  if t.isEmpty ∨ !endsWord (firstChar rest) then throw .malformed
  let (token, rest) ←
    if t = .of "YAML" then version rest
    else if t = .of "TAG" then tagForm rest
    else pure (.reserved, rest.dropWhile fun s => !endsLine s.char)
  match endLine? rest with
  | some rest => return (token, rest)
  | none => throw .malformed

end RequestRules.Yaml.Mark
