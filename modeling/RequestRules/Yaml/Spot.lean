import RequestRules.Text

/-!
# Spots

A text is read as the list of its spots: each character with its place.  A line ends in `\n`, in `\r`, in both, or in
U+0085, which all become a spot of `\n`, or in U+2028 or U+2029.  Behind the text there is a spot of its own, with a
character that no text may hold.
-/

namespace RequestRules.Yaml

structure Spot where
  char : CodePoint
  index : Nat
  line : Nat
  column : Nat
  deriving Repr

namespace Spot

/-- The character of the spot behind the text. -/
def finalChar : CodePoint := '\x00'

def isAllowed (c : CodePoint) : Bool :=
  let n := c.toNat
  n = 0x9 ∨ n = 0xa ∨ n = 0xd ∨ (0x20 ≤ n ∧ n ≤ 0x7e) ∨ n = 0x85 ∨ (0xa0 ≤ n ∧ n ≤ 0xd7ff) ∨
    (0xe000 ≤ n ∧ n ≤ 0xfffd) ∨ 0x10000 ≤ n

/-- The spots of a text from a place on.  A byte order mark does not count in its line. -/
def spotsFrom (index line column : Nat) : Text → List Spot
  | [] => [⟨finalChar, index, line, column⟩]
  | '\r' :: '\n' :: t => ⟨'\n', index, line, column⟩ :: spotsFrom (index + 2) (line + 1) 0 t
  | c :: t =>
    if c = '\n' ∨ c = '\r' ∨ c = '\x85' then ⟨'\n', index, line, column⟩ :: spotsFrom (index + 1) (line + 1) 0 t
    else if c = '\u2028' ∨ c = '\u2029' then ⟨c, index, line, column⟩ :: spotsFrom (index + 1) (line + 1) 0 t
    else if c = '\ufeff' then ⟨c, index, line, column⟩ :: spotsFrom (index + 1) line column t
    else ⟨c, index, line, column⟩ :: spotsFrom (index + 1) line (column + 1) t

def ofText (t : Text) : List Spot := spotsFrom 0 0 0 t

/-! ## Classes of characters -/

def isBreak (c : CodePoint) : Bool := c = '\n' ∨ c = '\u2028' ∨ c = '\u2029'

def isSpaceOrTab (c : CodePoint) : Bool := c = ' ' ∨ c = '\t'

def endsLine (c : CodePoint) : Bool := isBreak c || c = finalChar

/-- A word that holds tabs ends here. -/
def endsWord (c : CodePoint) : Bool := endsLine c || c = ' '

def isGap (c : CodePoint) : Bool := endsWord c || c = '\t'

def isNameChar (c : CodePoint) : Bool := c.isAlphanum || c = '-' || c = '_'

/-! ## The first spot of a list -/

def firstChar : List Spot → CodePoint
  | [] => finalChar
  | s :: _ => s.char

def charAt (ss : List Spot) (n : Nat) : CodePoint := firstChar (ss.drop n)

def firstColumn : List Spot → Nat
  | [] => 0
  | s :: _ => s.column

def takeWhile (keep : CodePoint → Bool) (ss : List Spot) : Text × List Spot :=
  ((ss.takeWhile fun s => keep s.char).map Spot.char, ss.dropWhile fun s => keep s.char)

def skipSpaces (ss : List Spot) : List Spot := ss.dropWhile fun s => s.char = .char ' '

/-- The break at the first spot, if there is one, and the spots behind it. -/
def takeBreak : List Spot → Text × List Spot
  | [] => ([], [])
  | s :: ss => if isBreak s.char then ([s.char], ss) else ([], s :: ss)

def startsWith (t : Text) (ss : List Spot) : Bool := (ss.take t.length).map Spot.char = t

/-- `---` or `...` stands here as a word. -/
def atDocumentMark (ss : List Spot) : Bool :=
  (startsWith (.of "---") ss || startsWith (.of "...") ss) && isGap (charAt ss 3)

/-- The spots behind the end of a line, from the white space and the comment before it on, unless something else stands
there. -/
def endLine? (ss : List Spot) : Option (List Spot) :=
  let ss := skipSpaces ss
  let ss := if firstChar ss = '#' then ss.dropWhile fun s => !endsLine s.char else ss
  match ss with
  | [] => some []
  | s :: rest => if isBreak s.char then some rest else if s.char = finalChar then some ss else none

/-- What stands for a break and the further breaks behind it: one break counts as a space. -/
def fold (first : CodePoint) (further : Text) : Text :=
  if first ≠ '\n' then first :: further else if further.isEmpty then [' '] else further

end Spot

end RequestRules.Yaml
