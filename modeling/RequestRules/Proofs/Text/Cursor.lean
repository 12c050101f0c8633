import RequestRules.Proofs.Text
import RequestRules.Text.Cursor

/-!
# What a cursor moves over

A cursor is moved by calls one after the other: it accepts a text, or takes a run of characters.  `Cursor.call_ofText` is
one call: what is answered is right about the text from the position on (`Cursor.Answers`), and the cursor stands behind
what the call has moved over.  `Cursor.moves_between` is any number of calls: nothing is passed over and nothing is read
twice, for what they have moved over is the text between the two positions.
-/

namespace RequestRules

/-- The longest run at the front of `t` whose characters are all in `keep`. -/
def Text.LongestRun (keep : CodePoint → Prop) (t r : Text) : Prop :=
  r <+: t ∧ (∀ c ∈ r, keep c) ∧ ∀ r', r' <+: t → (∀ c ∈ r', keep c) → r' <+: r

theorem Text.longestRun_takeWhile (keep : CodePoint → Bool) (t : Text) :
    Text.LongestRun (fun c => keep c = true) t (t.takeWhile keep) := by
  refine ⟨List.takeWhile_prefix keep, fun c hc => List.mem_takeWhile_imp hc, ?_⟩
  intro r' hr' hkeep
  obtain ⟨rest, rfl⟩ := hr'
  rw [List.takeWhile_append_of_pos hkeep]
  exact List.prefix_append _ _

namespace Cursor

/-! ## Calls -/

inductive Call
  | accept (p : Text)
  | takeOf (chars : Text)
  | takeUntil (chars : Text)
  deriving DecidableEq, Repr

/-- Whether the text went on with what was to be accepted, or the run that was taken. -/
inductive Answer
  | accepted (yes : Bool)
  | taken (run : Text)
  deriving DecidableEq, Repr

def call (s : Cursor) : Call → Answer × Cursor
  | .accept p => (.accepted (s.accept p).1, (s.accept p).2)
  | .takeOf chars => (.taken (s.takeOf chars).1, (s.takeOf chars).2)
  | .takeUntil chars => (.taken (s.takeUntil chars).1, (s.takeUntil chars).2)

/-- What a call has moved over, by what it answers. -/
def Call.moved : Call → Answer → Text
  | .accept p, .accepted true => p
  | _, .accepted _ => []
  | _, .taken run => run

def after (s : Cursor) : List Call → Cursor
  | [] => s
  | c :: cs => (s.call c).2.after cs

def moves (s : Cursor) : List Call → List Text
  | [] => []
  | c :: cs => c.moved (s.call c).1 :: (s.call c).2.moves cs

/-- An answer is right about the text from the position on. -/
inductive Answers (rest : Text) : Call → Answer → Prop
  | accepted {p : Text} (h : p <+: rest) : Answers rest (.accept p) (.accepted true)
  | refused {p : Text} (h : ¬ p <+: rest) : Answers rest (.accept p) (.accepted false)
  | takenOf {chars run : Text} (h : Text.LongestRun (· ∈ chars) rest run) : Answers rest (.takeOf chars) (.taken run)
  | takenUntil {chars run : Text} (h : Text.LongestRun (· ∉ chars) rest run) :
      Answers rest (.takeUntil chars) (.taken run)

/-! ## One call -/

section Call

variable {t : Text} {pos : Nat}

/-- The cursor behind a part of what is left. -/
theorem ofText_add (h : pos ≤ t.length) {run rest : Text} (hrun : t.drop pos = run ++ rest) :
    pos + run.length ≤ t.length ∧ ofText t (pos + run.length) = ⟨pos + run.length, rest, false⟩ := by
  have hlength : (t.drop pos).length = run.length + rest.length := by rw [hrun, List.length_append]
  rw [List.length_drop] at hlength
  have hle : pos + run.length ≤ t.length := by omega
  have hrest : t.drop (pos + run.length) = rest := by rw [← List.drop_drop, hrun, List.drop_left]
  refine ⟨hle, ?_⟩
  unfold ofText
  rw [hrest, decide_eq_false (Nat.not_lt.2 hle)]

theorem accept_ofText (h : pos ≤ t.length) (p : Text) : (ofText t pos).accept p =
    if p <+: t.drop pos then (true, ofText t (pos + p.length)) else (false, ofText t pos) := by
  have hbeyond : (ofText t pos).beyond = false := decide_eq_false (Nat.not_lt.2 h)
  unfold accept
  rw [hbeyond, if_neg Bool.false_ne_true]
  by_cases hp : p <+: t.drop pos
  · obtain ⟨rest, hrest⟩ := hp
    have hstrip : (ofText t pos).rest.strip? p = some rest := Text.strip?_eq_some.2 hrest.symm
    rw [if_pos ⟨rest, hrest⟩, hstrip, (ofText_add h hrest.symm).2]
    rfl
  · have hstrip : (ofText t pos).rest.strip? p = none := Text.strip?_eq_none hp
    rw [if_neg hp, hstrip]

theorem takeWhile_ofText (h : pos ≤ t.length) (keep : CodePoint → Bool) : (ofText t pos).takeWhile keep =
    ((t.drop pos).takeWhile keep, ofText t (pos + ((t.drop pos).takeWhile keep).length)) := by
  have hbeyond : (ofText t pos).beyond = false := decide_eq_false (Nat.not_lt.2 h)
  have hrun : t.drop pos = (t.drop pos).takeWhile keep ++ (t.drop pos).dropWhile keep :=
    List.takeWhile_append_dropWhile.symm
  unfold takeWhile
  rw [(ofText_add h hrun).2, hbeyond]
  rfl

/-- **One call**: its answer is right, and the cursor stands behind what the call has moved over. -/
theorem call_ofText (h : pos ≤ t.length) (c : Call) :
    ∃ a, (ofText t pos).call c = (a, ofText t (pos + (c.moved a).length)) ∧ Answers (t.drop pos) c a ∧
      c.moved a <+: t.drop pos := by
  cases c with
  | accept p =>
    unfold call
    dsimp only
    rw [accept_ofText h p]
    by_cases hp : p <+: t.drop pos
    · rw [if_pos hp]
      exact ⟨_, rfl, .accepted hp, hp⟩
    · rw [if_neg hp]
      exact ⟨_, rfl, .refused hp, List.nil_prefix⟩
  | takeOf chars =>
    have hlongest := Text.longestRun_takeWhile (fun c => chars.contains c) (t.drop pos)
    unfold call takeOf
    dsimp only
    rw [takeWhile_ofText h]
    refine ⟨_, rfl, .takenOf ?_, hlongest.1⟩
    simpa using hlongest
  | takeUntil chars =>
    have hlongest := Text.longestRun_takeWhile (fun c => !chars.contains c) (t.drop pos)
    unfold call takeUntil
    dsimp only
    rw [takeWhile_ofText h]
    refine ⟨_, rfl, .takenUntil ?_, hlongest.1⟩
    simpa using hlongest

end Call

/-! ## Any number of calls -/

section Calls

variable {t : Text} {start : Nat}

/-- The cursor stays a cursor over its text, and what the calls have moved over lies in front of what is left. -/
theorem after_ofText (h : start ≤ t.length) (cs : List Call) :
    ∃ pos, (ofText t start).after cs = ofText t pos ∧ pos ≤ t.length ∧
      pos = start + ((ofText t start).moves cs).flatten.length ∧ ((ofText t start).moves cs).flatten <+: t.drop start := by
  induction cs generalizing start with
  | nil => exact ⟨start, rfl, h, rfl, List.nil_prefix⟩
  | cons c cs ih =>
    obtain ⟨a, hcall, _, rest, hrest⟩ := call_ofText h c
    have hnext : start + (c.moved a).length ≤ t.length := (ofText_add h hrest.symm).1
    obtain ⟨pos, hafter, hle, hpos, hfront⟩ := ih hnext
    have hdrop : t.drop (start + (c.moved a).length) = rest := by rw [← List.drop_drop, ← hrest, List.drop_left]
    rw [hdrop] at hfront
    have hmoves : ((ofText t start).moves (c :: cs)).flatten =
        c.moved a ++ ((ofText t (start + (c.moved a).length)).moves cs).flatten := by
      rw [moves, hcall, List.flatten_cons]
    refine ⟨pos, ?_, hle, ?_, ?_⟩
    · rw [after, hcall]
      exact hafter
    · rw [hmoves, List.length_append, hpos, Nat.add_assoc]
    · rw [hmoves, ← hrest]
      exact (List.prefix_append_right_inj _).2 hfront

/-- **The cursor moves over the text between its positions.**  From a position in the text on, after any calls, it stands
at no earlier position and not behind the end, and the calls have moved over just the text in between.  Every further call
gets the right answer (a run is the longest there is), and the cursor goes on by as much as it moves over. -/
theorem moves_between (h : start ≤ t.length) (cs : List Call) :
    let s := (ofText t start).after cs
    start ≤ s.pos ∧ s.pos ≤ t.length ∧ ((ofText t start).moves cs).flatten = (t.take s.pos).drop start ∧
      ∀ c, Answers (t.drop s.pos) c (s.call c).1 ∧ (s.call c).2.pos = s.pos + (c.moved (s.call c).1).length := by
  obtain ⟨pos, hafter, hle, hpos, hfront⟩ := after_ofText h cs
  intro s
  have hs : s = ofText t pos := hafter
  rw [hs]
  refine ⟨?_, hle, ?_, fun c => ?_⟩
  · show start ≤ pos
    omega
  · have hlength : pos - start = ((ofText t start).moves cs).flatten.length := by omega
    calc ((ofText t start).moves cs).flatten
        = (t.drop start).take (pos - start) := by rw [hlength]; exact List.prefix_iff_eq_take.1 hfront
      _ = (t.take pos).drop start := (List.drop_take ..).symm
  · obtain ⟨a, hcall, hanswer, _⟩ := call_ofText hle c
    rw [hcall]
    exact ⟨hanswer, rfl⟩

/-- From the query of an address on: a name is taken, one mark is not there and another is, and the rest is taken. -/
theorem moves_between_query :
    let t := Text.of "/a?k=1"
    let cs : List Call := [.takeUntil ['=', '&'], .accept ['&'], .accept ['='], .takeOf (Text.of "0123456789")]
    3 ≤ t.length ∧ (ofText t 3).moves cs = [Text.of "k", [], Text.of "=", Text.of "1"] ∧
      ((ofText t 3).moves cs).flatten = (t.take ((ofText t 3).after cs).pos).drop 3 := by
  intro t cs
  have h : 3 ≤ t.length := by decide
  exact ⟨h, by decide, (moves_between h cs).2.2.1⟩

end Calls

end Cursor

end RequestRules
