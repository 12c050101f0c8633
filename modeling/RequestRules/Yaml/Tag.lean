import RequestRules.Yaml.Scalar.Time

/-!
# Tags

The tags of the language, and the tag that a plain scalar has by what it looks like (`Tag.ofPlain`): truth values,
numbers, nothing, times, and the keys `<<` and `=` that have a meaning of their own; anything else is a text.
-/

namespace RequestRules.Yaml.Tag

def core (name : String) : Text := .of "tag:yaml.org,2002:" ++ .of name

def bool : Text := core "bool"
def int : Text := core "int"
def float : Text := core "float"
def null : Text := core "null"
def timestamp : Text := core "timestamp"
def merge : Text := core "merge"
def value : Text := core "value"
def str : Text := core "str"
def binary : Text := core "binary"
def seq : Text := core "seq"
def map : Text := core "map"
def set : Text := core "set"
def omap : Text := core "omap"
def pairs : Text := core "pairs"
/-- a text that would be an indicator -/
def indicator : Text := core "yaml"

def handles : List (Text × Text) := [(.of "!", .of "!"), (.of "!!", core "")]

/-! ## Words -/

def trueWords : List Text := [.of "yes", .of "true", .of "on"]
def falseWords : List Text := [.of "no", .of "false", .of "off"]

def capitalized : Text → Text
  | [] => []
  | c :: t => c.toUpper :: t

/-- The text is one of the words in lower case, in upper case, or with a capital. -/
def isWord (ws : List Text) (t : Text) : Bool :=
  ws.any fun w => t = w || t = capitalized w || t = w.map CodePoint.toUpper

/-! ## Numbers -/

def skipSign : Text → Text
  | '+' :: t | '-' :: t => t
  | t => t

def isDigitOrLine (c : CodePoint) : Bool := c.isDigit || c = '_'

def allOf (p : CodePoint → Bool) (t : Text) : Bool := !t.isEmpty && t.all p

def isDigits : Text → Bool
  | [] => false
  | c :: t => c.isDigit && t.all isDigitOrLine

def isExponent : Text → Bool
  | [] => true
  | e :: s :: t => (e = 'e' || e = 'E') && (s = '+' || s = '-') && allOf CodePoint.isDigit t
  | _ => false

/-- One digit, or two of which the first is at most five. -/
def isSixtieth : Text → Bool
  | [c] => c.isDigit
  | [b, c] => b.isDigit && b.toNat ≤ '5'.toNat && c.isDigit
  | _ => false

/-- A run of digits and then parts of a sixtieth, at least one. -/
def isSexagesimal (isHead : Text → Bool) (t : Text) : Bool :=
  match t.split ':' with
  | head :: part :: parts => isHead head && (part :: parts).all isSixtieth
  | _ => false

def isPositive (t : Text) : Bool := isDigits t && t.head? ≠ some (.char '0')

def isInt (t : Text) : Bool :=
  match skipSign t with
  | ['0'] => true
  | '0' :: 'b' :: ds => allOf (fun c => c = '0' || c = '1' || c = '_') ds
  | '0' :: 'x' :: ds =>
    allOf (fun c => isDigitOrLine c || ('a' ≤ c && c ≤ 'f') || ('A' ≤ c && c ≤ 'F')) ds
  | '0' :: ds => allOf (fun c => ('0' ≤ c && c ≤ '7') || c = '_') ds
  | ds => isPositive ds || isSexagesimal isPositive ds

def isFloat (t : Text) : Bool :=
  match t with
  | '.' :: rest =>
    let (ds, e) := rest.span isDigitOrLine
    isWord [.of "inf"] rest || [Text.of "nan", Text.of "NaN", Text.of "NAN"].contains rest ||
      (isDigits ds && isExponent e)
  | _ =>
    match (skipSign t).cut? '.' with
    | some (whole, rest) =>
      let (ds, e) := rest.span isDigitOrLine
      (whole.isEmpty && isWord [.of "inf"] rest) || (isDigits whole && isExponent e) ||
        (isSexagesimal isDigits whole && e.isEmpty && ds = rest)
    | none => false

/-! ## Plain scalars -/

def isTime (t : Text) : Bool :=
  match Time.read? t with
  | some s => s.clock.isSome || t.length = 10
  | none => false

/-- The tag of a text without a newline at its end. -/
def ofLine (t : Text) : Text :=
  if isWord (trueWords ++ falseWords) t then bool
  else if isFloat t then float
  else if isInt t then int
  else if t = .of "<<" then merge
  else if t.isEmpty ∨ t = [.char '~'] ∨ isWord [.of "null"] t then null
  else if isTime t then timestamp
  else if t = [.char '='] then value
  else if t = [.char '!'] ∨ t = [.char '&'] ∨ t = [.char '*'] then indicator
  else str

/-- The tag of a plain scalar.  A newline at its end does not count. -/
def ofPlain (t : Text) : Text :=
  if 1 < t.length ∧ t.getLast? = some (.char '\n') then ofLine t.dropLast else ofLine t

end RequestRules.Yaml.Tag
