import RequestRules.Text

/-!
# A cursor over a text

The cursor holds a position and the text from there on.  A position behind the end has nothing left, and then not even
the empty text can be accepted.
-/

namespace RequestRules

structure Cursor where
  pos : Nat
  /-- what is left from `pos` on -/
  rest : Text
  beyond : Bool := false
  deriving DecidableEq, Repr

namespace Cursor

def ofText (t : Text) (pos : Nat) : Cursor := ⟨pos, t.drop pos, t.length < pos⟩

def atEnd (s : Cursor) : Bool := s.rest.isEmpty

/-- Moves behind `p` if the text goes on with it. -/
def accept (s : Cursor) (p : Text) : Bool × Cursor :=
  if s.beyond then (false, s)
  else match s.rest.strip? p with
    | some r => (true, { s with pos := s.pos + p.length, rest := r })
    | none => (false, s)

/-- Moves behind the longest run of characters with `keep`, and gives that run. -/
def takeWhile (s : Cursor) (keep : CodePoint → Bool) : Text × Cursor :=
  let run := s.rest.takeWhile keep
  (run, { s with pos := s.pos + run.length, rest := s.rest.dropWhile keep })

def takeOf (s : Cursor) (chars : Text) : Text × Cursor := s.takeWhile fun c => chars.contains c

def takeUntil (s : Cursor) (chars : Text) : Text × Cursor := s.takeWhile fun c => !chars.contains c

end Cursor

end RequestRules
