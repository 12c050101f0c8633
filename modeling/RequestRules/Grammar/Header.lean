import RequestRules.Text

/-!
# Header fragments

A fragment is written `{key=value&key=value}`.  Reading takes at most one brace off each end, keeps the order and every
repetition, and passes over parts without `=`.  `Header.render` writes a fragment.
-/

namespace RequestRules

abbrev Header := Text × Text

namespace Header

/-- `key=value`, cut at the first `=`. -/
def ofPart? (t : Text) : Option Header := t.cut? '='

def dropOpening : Text → Text
  | '{' :: t => t
  | t => t

def dropClosing (t : Text) : Text :=
  if t.getLast? = some (.char '}') then t.dropLast else t

def parse (fragment : Text) : List Header :=
  ((dropClosing (dropOpening fragment)).split '&').filterMap ofPart?

def parseOption : Option Text → List Header
  | none => []
  | some t => parse t

def renderPart (h : Header) : Text := h.1 ++ .char '=' :: h.2

/-- `{key=value&key=value}`. -/
def render (hs : List Header) : Text :=
  '{' :: (Text.join ['&'] (hs.map renderPart) ++ [.char '}'])

end Header

end RequestRules
