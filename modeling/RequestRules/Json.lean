import RequestRules.Number.Binary64.Shortest
import RequestRules.Text.Quoted

/-!
# JSON

Values with their written form.  All that is not ASCII is escaped: a character above `U+FFFF` as the two surrogates that
stand for it, and a surrogate as itself.  Without an indent a value stands on one line; with one each item of a container
stands on a line of its own, behind the indent once for each level.
-/

namespace RequestRules

inductive Json
  | null
  | bool (b : Bool)
  | int (n : Int)
  | real (x : Binary64)
  | text (t : Text)
  | list (xs : List Json)
  | object (fields : List (Text × Json))
  deriving Repr

namespace Json

/-! ## Texts -/

def unit (n : Nat) : Text := .char '\\' :: 'u' :: hexPadded 4 n

def escape (c : CodePoint) : Text :=
  if c = '"' then .of "\\\""
  else if c = '\\' then .of "\\\\"
  else if c = '\n' then .of "\\n"
  else if c = '\r' then .of "\\r"
  else if c = '\t' then .of "\\t"
  else if c = '\x0c' then .of "\\f"
  else if c = '\x08' then .of "\\b"
  else
    let n := c.toNat
    if 0x20 ≤ n ∧ n < 0x7f then [c]
    else if n < 0x10000 then unit n
    else
      let r := n - 0x10000
      unit (0xd800 + r / 0x400) ++ unit (0xdc00 + r % 0x400)

def quote (t : Text) : Text := .char '"' :: (t.flatMap escape ++ [.char '"'])

/-! ## Values -/

def renderReal : Binary64 → Text
  | .infinite false => .of "Infinity"
  | .infinite true => .of "-Infinity"
  | .nan => .of "NaN"
  | x => x.render

/-- The indent that a number stands for. -/
def blanks (n : Int) : Text := List.replicate n.toNat ' '

/-- What stands before an item of a container, `depth` levels deep. -/
def newline (indent : Option Text) (depth : Nat) : Text :=
  match indent with
  | none => []
  | some t => '\n' :: (List.replicate depth t).flatten

def comma (indent : Option Text) (depth : Nat) : Text :=
  match indent with
  | none => .of ", "
  | some _ => ',' :: newline indent depth

mutual
/-- The written form of a value, `depth` levels deep. -/
def renderAt (indent : Option Text) (depth : Nat) : Json → Text
  | null => .of "null"
  | bool true => .of "true"
  | bool false => .of "false"
  | int n => Numeral.ofInt n
  | real x => renderReal x
  | text t => quote t
  | list [] => .of "[]"
  | list (x :: xs) =>
    '[' :: (newline indent (depth + 1) ++ renderAt indent (depth + 1) x ++ renderItems indent (depth + 1) xs ++
      newline indent depth ++ [.char ']'])
  | object [] => .of "{}"
  | object ((k, v) :: fs) =>
    '{' :: (newline indent (depth + 1) ++ quote k ++ Text.of ": " ++ renderAt indent (depth + 1) v ++
      renderFields indent (depth + 1) fs ++ newline indent depth ++ [.char '}'])
def renderItems (indent : Option Text) (depth : Nat) : List Json → Text
  | [] => []
  | x :: xs => comma indent depth ++ renderAt indent depth x ++ renderItems indent depth xs
def renderFields (indent : Option Text) (depth : Nat) : List (Text × Json) → Text
  | [] => []
  | (k, v) :: fs =>
    comma indent depth ++ quote k ++ Text.of ": " ++ renderAt indent depth v ++ renderFields indent depth fs
end

def render (indent : Option Text) (j : Json) : Text := renderAt indent 0 j

/-! ## Order of fields -/

/-- The fields in order, if they are to be. -/
def inOrder {α : Type} (sort : Bool) (fs : List (Text × α)) : List (Text × α) :=
  if sort then fs.mergeSort fun a b => Text.before a.1 b.1 else fs

mutual
def sorted : Json → Json
  | list xs => list (sortedItems xs)
  | object fs => object (inOrder true (sortedFields fs))
  | j => j
def sortedItems : List Json → List Json
  | [] => []
  | x :: xs => sorted x :: sortedItems xs
def sortedFields : List (Text × Json) → List (Text × Json)
  | [] => []
  | (k, v) :: fs => (k, sorted v) :: sortedFields fs
end

def arranged (sort : Bool) (j : Json) : Json := if sort then j.sorted else j

/-! ## Long numbers -/

mutual
def isShort : Json → Bool
  | int n => Numeral.isInLimit n
  | list xs => areShort xs
  | object fs => fieldsAreShort fs
  | null | bool _ | real _ | text _ => true
def areShort : List Json → Bool
  | [] => true
  | x :: xs => isShort x && areShort xs
def fieldsAreShort : List (Text × Json) → Bool
  | [] => true
  | (_, v) :: fs => isShort v && fieldsAreShort fs
end

end Json

end RequestRules
