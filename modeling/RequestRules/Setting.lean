import RequestRules.Calendar.Moment
import RequestRules.Number.Binary64

/-!
# Settings

A setting is what a configuration file holds.  `Setting.same?` is the equality of settings:

* truth values, integers and fractions are compared as numbers, so that `true`, `1` and `1.0` are the same;
* the order of the entries of a map does not count;
* a fraction that is not a number differs from all others, and `noNumber` is the same as itself only inside of a
  container;
* two settings that both go on without an end are not compared.
-/

namespace RequestRules

inductive Setting
  | null
  | bool (b : Bool)
  | int (n : Int)
  | real (x : Binary64)
  /-- the word for what is not a number -/
  | noNumber
  | text (t : Text)
  | bytes (bs : List UInt8)
  | date (d : Date)
  | moment (m : Moment)
  | list (xs : List Setting)
  | pair (a b : Setting)
  | set (xs : List Setting)
  | map (entries : List (Setting × Setting))
  /-- a container inside of itself, which goes on without an end -/
  | endless
  deriving Repr

namespace Setting

/-! ## Equality -/

def int? : Setting → Option Int
  | bool b => some (if b then 1 else 0)
  | int n => some n
  | _ => none

/-- Two settings that are no containers are the same. -/
def sameScalar (a b : Setting) : Bool :=
  match a, b with
  | null, null => true
  | real x, real y => x.eq y
  | noNumber, noNumber => true
  | text s, text t => s = t
  | bytes s, bytes t => s = t
  | date d, date e => d = e
  | moment m, moment n => m.Same n
  | a, b =>
    match a.int?, b.int?, a, b with
    | some i, some j, _, _ => i = j
    | some i, none, _, real y => y.eqInt i
    | none, some j, real x, _ => x.eqInt j
    | _, _, _, _ => false

def find? (k : Setting) (entries : List (Setting × Setting)) : Option Setting :=
  (entries.find? fun e => sameScalar k e.1).map (·.2)

def isText (t : Text) : Setting → Bool
  | text s => s = t
  | _ => false

mutual
/-- Nothing in the setting goes on without an end. -/
def hasEnd : Setting → Bool
  | list xs => allHaveEnd xs
  | pair a b => a.hasEnd && b.hasEnd
  | map es => valuesHaveEnd es
  | endless => false
  | _ => true
def allHaveEnd : List Setting → Bool
  | [] => true
  | x :: xs => x.hasEnd && allHaveEnd xs
def valuesHaveEnd : List (Setting × Setting) → Bool
  | [] => true
  | (_, v) :: es => v.hasEnd && valuesHaveEnd es
end

def sameElements (xs ys : List Setting) : Bool :=
  xs.length = ys.length && xs.all fun x => ys.any fun y => sameScalar x y

mutual
/-- Two settings inside of containers are the same, unless they both have no end. -/
def sameInside? : Setting → Setting → Option Bool
  | list xs, b => match b with
    | list ys => if xs.length = ys.length then sameItems? xs ys else some false
    | endless => if allHaveEnd xs then some false else none
    | _ => some false
  | pair a b, c => match c with
    | pair d e => do if ← sameInside? a d then sameInside? b e else some false
    | endless => if a.hasEnd && b.hasEnd then some false else none
    | _ => some false
  | set xs, b => match b with
    | set ys => some (sameElements xs ys)
    | _ => some false
  | map es, b => match b with
    | map fs => if es.length = fs.length then sameEntries? es fs else some false
    | endless => if valuesHaveEnd es then some false else none
    | _ => some false
  | endless, b => if b.hasEnd then some false else none
  | a, b => some (sameScalar a b)
def sameItems? : List Setting → List Setting → Option Bool
  | [], [] => some true
  | x :: xs, y :: ys => do if ← sameInside? x y then sameItems? xs ys else some false
  | _, _ => some false
/-- Every entry has one with the same key and the same value. -/
def sameEntries? : List (Setting × Setting) → List (Setting × Setting) → Option Bool
  | [], _ => some true
  | (k, v) :: es, fs =>
    match find? k fs with
    | some w => do if ← sameInside? v w then sameEntries? es fs else some false
    | none => some false
end

/-- Two settings are the same, unless they both have no end. -/
def same? : Setting → Setting → Option Bool
  | noNumber, noNumber => some false
  | a, b => sameInside? a b

/-! ## Maps -/

def isKey : Setting → Bool
  | list _ | set _ | map _ | endless => false
  | _ => true

/-- The entries with `v` under `k`.  A key that is there already stays as and where it is. -/
def put : List (Setting × Setting) → Setting → Setting → List (Setting × Setting)
  | [], k, v => [(k, v)]
  | (l, w) :: es, k, v => if sameScalar k l then (l, v) :: es else (l, w) :: put es k v

def field? (s : String) (entries : List (Setting × Setting)) : Option Setting := find? (text (.of s)) entries

def isSequence : Setting → Bool
  | list _ | bytes _ | pair .. => true
  | _ => false

/-- The setting counts as a yes: it is neither zero nor empty. -/
def isTruthy : Setting → Bool
  | null => false
  | bool b => b
  | int n => n ≠ 0
  | real x => !x.eqInt 0
  | text t => !t.isEmpty
  | bytes bs => !bs.isEmpty
  | list xs => !xs.isEmpty
  | set xs => !xs.isEmpty
  | map es => !es.isEmpty
  | noNumber | date _ | moment _ | pair .. | endless => true

end Setting

end RequestRules
