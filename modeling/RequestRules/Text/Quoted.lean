import RequestRules.Text.Printable

/-!
# Quoted texts

A text inside a message stands in single quotes, or in double quotes if it has a single quote and no double quote.  The
quote and the backslash are escaped, and so are all characters that are not printable.
-/

namespace RequestRules

def hexDigit (n : Nat) : CodePoint := n.digitChar

/-- The hexadecimal digits of `n`, with zeros in front up to `width`. -/
def hexPadded (width n : Nat) : Text :=
  let ds := Text.ofChars (Nat.toDigits 16 n)
  List.replicate (width - ds.length) (.char '0') ++ ds

namespace Quoted

def mark (t : Text) : CodePoint :=
  if t.contains '\'' ∧ !t.contains '"' then '"' else '\''

def code (c : CodePoint) : Text :=
  let n := c.toNat
  if n < 0x100 then '\\' :: 'x' :: hexPadded 2 n
  else if n < 0x10000 then '\\' :: 'u' :: hexPadded 4 n
  else '\\' :: 'U' :: hexPadded 8 n

/-- A character between quotes `q`. -/
def escape (q c : CodePoint) : Text :=
  if c = q ∨ c = '\\' then ['\\', c]
  else if c = '\n' then .of "\\n"
  else if c = '\r' then .of "\\r"
  else if c = '\t' then .of "\\t"
  else if isPrintable c then [c]
  else code c

end Quoted

def Text.quoted (t : Text) : Text :=
  let q := Quoted.mark t
  q :: (t.flatMap (Quoted.escape q) ++ [q])

def Text.quotedList (ts : List Text) : Text :=
  '[' :: (Text.join (.of ", ") (ts.map Text.quoted) ++ [.char ']'])

end RequestRules
