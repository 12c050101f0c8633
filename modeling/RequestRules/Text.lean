import RequestRules.Text.CodePoint

/-!
# Text

A text is the list of its code points.  Cutting and joining:

* `cut? c t` — the parts of `t` before and behind its first `c`;
* `split c t` — all parts of `t` between its `c`s, `join` puts a separator between parts;
* `strip? t p` — what follows a leading `p` of `t`;
* `run? p c t` — the parts of `t` before and behind a `c` that has only characters of `p` before it;
* `replace t p r` — every `p` of `t`, from left to right, becomes `r`.
-/

namespace RequestRules

abbrev Text := List CodePoint

namespace Text

def ofChars (cs : List Char) : Text := cs.map .char

@[simp] theorem ofChars_nil : ofChars [] = [] := rfl

@[simp] theorem ofChars_cons (c : Char) (cs : List Char) : ofChars (c :: cs) = .char c :: ofChars cs := rfl

/-- The text of a fixed string. -/
def of (s : String) : Text := ofChars s.toList

theorem of_injective {s t : String} (h : of s = of t) : s = t :=
  String.toList_inj.1 (List.map_inj_right (fun _ _ => CodePoint.char.inj) |>.1 h)

def cut? (c : CodePoint) : Text → Option (Text × Text)
  | [] => none
  | a :: t => if a = c then some ([], t) else (cut? c t).map fun (l, r) => (a :: l, r)

/-- The parts before and behind the last `c`. -/
def cutLast? (c : CodePoint) : Text → Option (Text × Text)
  | [] => none
  | a :: t =>
    match cutLast? c t with
    | some (l, r) => some (a :: l, r)
    | none => if a = c then some ([], t) else none

/-- The parts between the `c`s; there is one more of them than there are `c`s. -/
def split (c : CodePoint) : Text → List Text
  | [] => [[]]
  | a :: t =>
    if a = c then [] :: split c t
    else match split c t with
      | [] => [[a]]
      | p :: ps => (a :: p) :: ps

def join (sep : Text) : List Text → Text
  | [] => []
  | [p] => p
  | p :: q :: ps => p ++ sep ++ join sep (q :: ps)

def strip? : (t p : Text) → Option Text
  | t, [] => some t
  | [], _ :: _ => none
  | b :: t, a :: p => if a = b then strip? t p else none

/-- Every `a :: p` becomes `r`; an occurrence starts behind the end of the one before. -/
def replaceFrom (a : CodePoint) (p r : Text) : (skip : Nat) → Text → Text
  | _, [] => []
  | skip + 1, _ :: t => replaceFrom a p r skip t
  | 0, c :: t =>
    if c = a ∧ p.isPrefixOf t then r ++ replaceFrom a p r p.length t else c :: replaceFrom a p r 0 t

def replace (t p r : Text) : Text :=
  match p with
  | [] => t
  | a :: p => replaceFrom a p r 0 t

def run? (p : CodePoint → Bool) (c : CodePoint) (t : Text) : Option (Text × Text) :=
  match t.span p with
  | (run, a :: r) => if a = c then some (run, r) else none
  | (_, []) => none

def last? (t : Text) : Option CodePoint := t.getLast?

/-- The order of texts by their characters' numbers; a text comes before its extensions. -/
def before : Text → Text → Bool
  | [], _ => true
  | _ :: _, [] => false
  | a :: s, b :: t => if a = b then before s t else a.toNat < b.toNat

/-- The system has a name like this: it writes bytes that it cannot decode as surrogates, each as one of these. -/
def isEncodable (t : Text) : Bool := t.all fun c => !c.isSurrogate || (0xdc80 ≤ c.toNat && c.toNat ≤ 0xdcff)

end Text

end RequestRules
