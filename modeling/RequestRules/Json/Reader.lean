import RequestRules.Json

/-!
# Reading JSON

`Json.read? t` is the value that the whole of `t` denotes, blank characters around its parts.  A number with a fraction
or an exponent is rounded; of two fields with one name the later counts, in the place of the first.
-/

namespace RequestRules

namespace Json

def skip (t : Text) : Text := t.dropWhile fun c => c = .char ' ' || c = .char '\t' || c = .char '\n' || c = .char '\r'

/-! ## Texts -/

def hexValue? (c : CodePoint) : Option Nat :=
  if c.isDigit then some (c.toNat - 0x30)
  else if 'a' ≤ c ∧ c ≤ 'f' then some (c.toNat - 0x61 + 10)
  else if 'A' ≤ c ∧ c ≤ 'F' then some (c.toNat - 0x41 + 10)
  else none

def unit? (a b c d : CodePoint) : Option CodePoint := do
  return .ofNat (((← hexValue? a) * 16 + (← hexValue? b)) * 256 + ((← hexValue? c) * 16 + (← hexValue? d)))

def letter? (c : CodePoint) : Option CodePoint :=
  if c = '"' ∨ c = '\\' ∨ c = '/' then some c
  else if c = 'n' then some (.char '\n')
  else if c = 'r' then some (.char '\r')
  else if c = 't' then some (.char '\t')
  else if c = 'f' then some (.char '\x0c')
  else if c = 'b' then some (.char '\x08')
  else none

/-- A code point before a text; a high surrogate before a low one becomes the character that both stand for. -/
def attach (x : CodePoint) : Text → Text
  | [] => [x]
  | y :: s => if x.isHigh ∧ y.isLow then x.join y :: s else x :: y :: s

/-- The text up to its closing quote, and what follows.  A high surrogate is joined with a low one behind it if both are
escaped. -/
def readText? : Text → Option (Text × Text)
  | '"' :: t => some ([], t)
  | '\\' :: 'u' :: a :: b :: c :: d :: t => do
    let x ← unit? a b c d
    let (s, r) ← readText? t
    return (if (Text.of "\\u").isPrefixOf t then attach x s else x :: s, r)
  | '\\' :: c :: t => do
    let x ← letter? c
    let (s, r) ← readText? t
    return (x :: s, r)
  | c :: t => do
    if c.toNat < 0x20 then none
    else
      let (s, r) ← readText? t
      return (c :: s, r)
  | [] => none

/-! ## Numbers -/

def fraction? : Text → Option (Option Text × Text)
  | '.' :: t =>
    match t.span CodePoint.isDigit with
    | ([], _) => none
    | (ds, t) => some (some ds, t)
  | t => some (none, t)

def exponent? : Text → Option (Option Int × Text)
  | [] => some (none, [])
  | e :: t =>
    if e = 'e' ∨ e = 'E' then
      let (negative, t) := match t with
        | '-' :: t => (true, t)
        | '+' :: t => (false, t)
        | t => (false, t)
      match t.span CodePoint.isDigit with
      | ([], _) => none
      | (ds, t) => some (some (if negative then -(Numeral.value ds : Int) else Numeral.value ds), t)
    else some (none, e :: t)

def readNumber? (t : Text) : Option (Json × Text) := do
  let (negative, t) := match t with
    | '-' :: t => (true, t)
    | t => (false, t)
  let (whole, t) := t.span CodePoint.isDigit
  if whole.isEmpty ∨ (whole.head? = some (.char '0') ∧ whole.length ≠ 1) then none
  else
    let (fraction, t) ← fraction? t
    let (exponent, t) ← exponent? t
    match fraction, exponent with
    | none, none =>
      let n : Int := Numeral.value whole
      return (int (if negative then -n else n), t)
    | _, _ =>
      let fraction := fraction.getD []
      let x := Binary64.ofDecimal negative (Numeral.value (whole ++ fraction))
        (exponent.getD 0 - fraction.length)
      return (real x, t)

/-! ## Values -/

def words : List (Text × Json) := [
  (.of "null", null),
  (.of "true", bool true),
  (.of "false", bool false),
  (.of "NaN", real .nan),
  (.of "Infinity", real (.infinite false)),
  (.of "-Infinity", real (.infinite true))]

def readWord? (t : Text) : Option (Json × Text) :=
  words.findSome? fun (w, j) => (t.strip? w).map fun r => (j, r)

/-- The fields with one more; a name that is there keeps its place. -/
def setField (fs : List (Text × Json)) (k : Text) (v : Json) : List (Text × Json) :=
  match fs with
  | [] => [(k, v)]
  | (l, w) :: fs => if k = l then (k, v) :: fs else (l, w) :: setField fs k v

mutual
/-- A value, and what follows; `fuel` bounds the depth and the number of items. -/
def readValue? (fuel : Nat) (t : Text) : Option (Json × Text) :=
  match fuel with
  | 0 => none
  | fuel + 1 =>
    match skip t with
    | '"' :: t => (readText? t).map fun (s, r) => (text s, r)
    | '[' :: t =>
      match skip t with
      | ']' :: t => some (list [], t)
      | t => (readItems? fuel t).map fun (xs, r) => (list xs, r)
    | '{' :: t =>
      match skip t with
      | '}' :: t => some (object [], t)
      | t => (readFields? fuel [] t).map fun (fs, r) => (object fs, r)
    | t =>
      match readWord? t with
      | some p => some p
      | none => readNumber? t
def readItems? (fuel : Nat) (t : Text) : Option (List Json × Text) :=
  match fuel with
  | 0 => none
  | fuel + 1 => do
    let (x, t) ← readValue? fuel t
    match skip t with
    | ',' :: t =>
      let (xs, r) ← readItems? fuel t
      return (x :: xs, r)
    | ']' :: t => return ([x], t)
    | _ => none
/-- Fields behind those of `fs`, up to the closing brace. -/
def readFields? (fuel : Nat) (fs : List (Text × Json)) (t : Text) : Option (List (Text × Json) × Text) :=
  match fuel with
  | 0 => none
  | fuel + 1 =>
    match skip t with
    | '"' :: t => do
      let (k, t) ← readText? t
      match skip t with
      | ':' :: t =>
        let (v, t) ← readValue? fuel t
        let fs := setField fs k v
        match skip t with
        | ',' :: t => readFields? fuel fs t
        | '}' :: t => return (fs, t)
        | _ => none
      | _ => none
    | _ => none
end

def read? (t : Text) : Option Json := do
  let (j, r) ← readValue? (2 * t.length + 2) t
  if (skip r).isEmpty then return j else none

end Json

end RequestRules
