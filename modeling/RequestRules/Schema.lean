import RequestRules.Setting.Shown
import RequestRules.Text.Quoted

/-!
# Schemas

A schema says which settings are valid, and `Schema.check` gives the setting with the values that are filled in for what
is missing, or complaints.

* The entries of a map are checked in order, then the entries that are filled in; required entries are missing only then.
* A list is checked up to the first item with a complaint about something inside of it, and then only those complaints
  count; items that are invalid as a whole have one complaint each.
-/

namespace RequestRules

structure Rule where
  name : Text
  required : Bool := true
  filler : Option Setting := none
  deriving Repr

inductive Schema
  | int
  | text
  | bool
  | choice (words : List Text)
  | list (item : Schema)
  /-- a map with other keys, too, if it is open -/
  | map (fields : List (Rule × Schema)) (isOpen : Bool)
  deriving Repr

inductive Wrong
  | notInt
  | notText
  | notBool
  | notList
  | notMap
  | notOneOf (words : List Text)
  | extraKey
  | missingKey
  deriving DecidableEq, Repr

def Wrong.message : Wrong → Text
  | notInt => .of "expected int"
  | notText => .of "expected str"
  | notBool => .of "expected bool"
  | notList => .of "expected a list"
  | notMap => .of "expected a dictionary"
  | notOneOf words => .of "value must be one of " ++ Text.quotedList words
  | extraKey => .of "extra keys not allowed"
  | missingKey => .of "required key not provided"

/-- What is wrong with the setting at a path, and whether that is the value of an entry. -/
structure Complaint where
  wrong : Wrong
  path : List Setting
  inEntry : Bool := false
  deriving Repr

namespace Complaint

def message (c : Complaint) : Text :=
  c.wrong.message ++ (if c.inEntry then Text.of " for dictionary value" else []) ++
    (if c.path.isEmpty then []
      else Text.of " @ data[" ++ Text.join (.of "][") (c.path.map Setting.shown) ++ [.char ']'])

/-- A complaint about the value of the entry at a path, not about something inside of that value. -/
def asEntry (path : List Setting) (c : Complaint) : Complaint :=
  if c.path.length ≤ path.length then { c with inEntry := true } else c

end Complaint

structure Complaints where
  first : Complaint
  others : List Complaint := []
  deriving Repr

namespace Complaints

def toList (c : Complaints) : List Complaint := c.first :: c.others

def ofList? : List Complaint → Option Complaints
  | [] => none
  | c :: cs => some ⟨c, cs⟩

end Complaints

namespace Schema

abbrev Outcome := Except Complaints Setting

def wrong (path : List Setting) (w : Wrong) : Outcome := .error ⟨⟨w, path, false⟩, []⟩

def settle (cs : List Complaint) (s : Setting) : Outcome :=
  match Complaints.ofList? cs with
  | none => .ok s
  | some cs => .error cs

/-- The entries with those that are filled in behind them. -/
def fill (fields : List (Rule × Schema)) (es : List (Setting × Setting)) : List (Setting × Setting) :=
  es ++ fields.filterMap fun (r, _) =>
    match r.filler, Setting.find? (.text r.name) es with
    | some v, none => some (.text r.name, v)
    | _, _ => none

def missing (path : List Setting) (fields : List (Rule × Schema)) (es : List (Setting × Setting)) : List Complaint :=
  (fields.filter fun (r, _) => r.required ∧ (Setting.find? (.text r.name) es).isNone).map fun (r, _) =>
    ⟨.missingKey, path ++ [.text r.name], false⟩

/-- Checks the items of a list from the `i`th on, with the complaints about the items before. -/
def checkItems (check : List Setting → Setting → Outcome) (path : List Setting) :
    (i : Nat) → (before : List Complaint) → List Setting → Except Complaints (List Complaint × List Setting)
  | _, before, [] => .ok (before, [])
  | i, before, x :: xs =>
    let here := path ++ [.int i]
    match check here x with
    | .ok y => do
      let (cs, ys) ← checkItems check path (i + 1) before xs
      return (cs, y :: ys)
    | .error c =>
      if here.length < c.first.path.length then .error c
      else checkItems check path (i + 1) (before ++ [c.first]) xs

/-- Checks the entries of a map; `check` finds the schema of a key. -/
def checkEntries (check : List Setting → Setting → Setting → Option Outcome) (path : List Setting) (isOpen : Bool) :
    List (Setting × Setting) → List Complaint × List (Setting × Setting)
  | [] => ([], [])
  | (k, v) :: es =>
    let here := path ++ [k]
    let (cs, fs) := checkEntries check path isOpen es
    match check here k v with
    | some (.ok w) => (cs, (k, w) :: fs)
    | some (.error c) => (c.toList.map (Complaint.asEntry here) ++ cs, fs)
    | none => if isOpen then (cs, (k, v) :: fs) else (⟨.extraKey, here, false⟩ :: cs, fs)

mutual
def checkAt (path : List Setting) : Schema → Setting → Outcome
  | .int, v => if v.int?.isSome then .ok v else wrong path .notInt
  | .text, v =>
    match v with
    | .text _ => .ok v
    | _ => wrong path .notText
  | .bool, v =>
    match v with
    | .bool _ => .ok v
    | _ => wrong path .notBool
  | .choice words, v =>
    if words.any fun w => v.isText w then .ok v else wrong path (.notOneOf words)
  | .list item, v =>
    match v with
    | .list xs => do
      let (cs, ys) ← checkItems (fun path v => checkAt path item v) path 0 [] xs
      settle cs (.list ys)
    | _ => wrong path .notList
  | .map fields isOpen, v =>
    match v with
    | .map es =>
      let es := fill fields es
      let (cs, ws) := checkEntries (fun here k v => checkField here fields k v) path isOpen es
      settle (cs ++ missing path fields es) (.map ws)
    | _ => wrong path .notMap
def checkField (path : List Setting) : List (Rule × Schema) → Setting → Setting → Option Outcome
  | [], _, _ => none
  | (r, s) :: fields, k, v => if k.isText r.name then some (checkAt path s v) else checkField path fields k v
end

def check (s : Schema) (v : Setting) : Outcome := checkAt [] s v

end Schema

end RequestRules
