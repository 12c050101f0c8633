import RequestRules.Proofs.Text
import RequestRules.Text.Blank

/-!
# Patterns

A `Pattern` is a regular expression in which only characters are repeated.  `Pattern.ways` are the ways to match it at the
front of a text, in the order in which a backtracking search comes to them, and `Pattern.search` goes through them until
what follows succeeds.

* `first?` is the match at the front of a text, `whole?` the match of a text as a whole, and `all` are the matches that
  are found one behind the other;
* `search_seq`, `search_alt`, … — what a search does for each kind of pattern;
* `search_greedy_of_stop` — a long run is not given up where a shorter one is no use; `search_lazy_line` — a short one is
  what is found by looking from the left; `search_greedy_line` — a long one is what is found by looking from the right;
* `of_mem_ways` — a match is a part of the text, and has only characters of the pattern;
* `exists_whole?` — whether there is a match as a whole is a question without an order: `leaves_seq`, `leaves_alt`, …
-/

namespace RequestRules

inductive CharClass
  /-- all characters but a newline -/
  | any
  | digit
  /-- the capital letters of ASCII -/
  | upper
  | blank
  | noneOf (t : Text)
  deriving DecidableEq, Repr

namespace CharClass

def has : CharClass → CodePoint → Bool
  | any, c => c ≠ '\n'
  | digit, c => c.isDigit
  | upper, c => c.isUpper
  | blank, c => isAsciiBlank c
  | noneOf t, c => !t.contains c

def shown : CharClass → Text
  | any => ['.']
  | digit => .of "\\d"
  | upper => .of "[A-Z]"
  | blank => .of "\\s"
  | noneOf t => .of "[^" ++ t ++ [.char ']']

/-- The runs of characters of the class at the front of a text, and what follows them, from the shortest on. -/
def runs (k : CharClass) : Text → List (Text × Text)
  | [] => [([], [])]
  | c :: t => ([], c :: t) :: if k.has c then (k.runs t).map fun x => (c :: x.1, x.2) else []

end CharClass

inductive Pattern
  | text (t : Text)
  | one (k : CharClass)
  /-- a run that is as short as possible -/
  | lazy (k : CharClass)
  /-- a run that is as long as possible -/
  | greedy (k : CharClass)
  /-- a run of at least one character that is as long as possible -/
  | several (k : CharClass)
  | seq (a b : Pattern)
  /-- the first pattern if possible, else the second -/
  | alt (a b : Pattern)
  /-- the pattern if possible, else nothing -/
  | maybe (a : Pattern)
  /-- what the pattern matches is captured under a number -/
  | group (n : Nat) (a : Pattern)
  /-- nothing, where the text does not go on with `t` -/
  | notNext (t : Text)
  /-- nothing, at the end of the text or before a newline that ends it -/
  | ending
  deriving DecidableEq, Repr

/-- A way to match a pattern at the front of a text: the part that is matched, what follows it, and what is captured. -/
structure Way where
  taken : Text
  rest : Text
  groups : List (Nat × Text) := []
  deriving DecidableEq, Repr

namespace Way

def append (v w : Way) : Way := ⟨v.taken ++ w.taken, w.rest, v.groups ++ w.groups⟩

def capture (n : Nat) (w : Way) : Way := { w with groups := (n, w.taken) :: w.groups }

def group? (w : Way) (n : Nat) : Option Text := w.groups.lookup n

def ofRun (x : Text × Text) : Way := ⟨x.1, x.2, []⟩

@[simp] theorem append_rest (v w : Way) : (v.append w).rest = w.rest := rfl

@[simp] theorem capture_rest (n : Nat) (w : Way) : (w.capture n).rest = w.rest := rfl

end Way

namespace Pattern

def row : List Pattern → Pattern
  | [] => text []
  | [p] => p
  | p :: ps => seq p (row ps)

theorem row_cons_cons (p q : Pattern) (ps : List Pattern) : row (p :: q :: ps) = seq p (row (q :: ps)) := rfl

theorem row_singleton (p : Pattern) : row [p] = p := rfl

/-- Characters with a meaning of their own are written behind a backslash. -/
def escape (c : CodePoint) : Text :=
  if (Text.of "\\{}[]()?*+.|^$").contains c then ['\\', c] else [c]

def shown : Pattern → Text
  | text t => t.flatMap escape
  | one k => k.shown
  | lazy k => k.shown ++ .of "*?"
  | greedy k => k.shown ++ [.char '*']
  | several k => k.shown ++ [.char '+']
  | seq a b => a.shown ++ b.shown
  | alt a b => a.shown ++ .char '|' :: b.shown
  | maybe a => a.shown ++ [.char '?']
  | group _ a => '(' :: (a.shown ++ [.char ')'])
  | notNext t => Text.of "(?!" ++ t.flatMap escape ++ [.char ')']
  | ending => ['$']

/-! ## Matching -/

/-- The ways to match a pattern at the front of a text, in the order in which they are tried. -/
def ways : Pattern → Text → List Way
  | text s, t =>
    match t.strip? s with
    | some r => [⟨s, r, []⟩]
    | none => []
  | one k, t =>
    match t with
    | c :: r => if k.has c then [⟨[c], r, []⟩] else []
    | [] => []
  | lazy k, t => (k.runs t).map .ofRun
  | greedy k, t => (k.runs t).reverse.map .ofRun
  | several k, t => ((k.runs t).reverse.filter fun x => x.1 ≠ []).map .ofRun
  | seq a b, t => (a.ways t).flatMap fun v => (b.ways v.rest).map v.append
  | alt a b, t => a.ways t ++ b.ways t
  | maybe a, t => a.ways t ++ [⟨[], t, []⟩]
  | group n a, t => (a.ways t).map (Way.capture n)
  | notNext s, t => if s.isPrefixOf t then [] else [⟨[], t, []⟩]
  | ending, t => if t = [] ∨ t = [.char '\n'] then [⟨[], t, []⟩] else []

/-- Tries the ways one after the other until one leads on. -/
def search {α : Type} (p : Pattern) (t : Text) (next : Way → Option α) : Option α := (p.ways t).findSome? next

def first? (p : Pattern) (t : Text) : Option Way := p.search t some

def whole? (p : Pattern) (t : Text) : Option Way := p.search t fun w => if w.rest = [] then some w else none

/-- The matches that are found one behind the other.  Where there is none, or an empty one, the search goes on behind the
next character. -/
def all (p : Pattern) : Text → List Way
  | [] => (p.first? []).toList
  | c :: t =>
    match p.first? (c :: t) with
    | none => all p t
    | some w => if w.rest.length ≤ t.length then w :: all p w.rest else w :: all p t
termination_by t => t.length

/-! ## What a search does -/

theorem findSome?_flatMap {α β γ : Type} (f : α → List β) (g : β → Option γ) (xs : List α) :
    (xs.flatMap f).findSome? g = xs.findSome? fun x => (f x).findSome? g := by
  induction xs with
  | nil => rfl
  | cons x xs ih =>
    rw [List.flatMap_cons, List.findSome?_append, ih, List.findSome?_cons]
    cases (f x).findSome? g <;> rfl

section Search

variable {α β : Type} {k : CharClass} {a b p : Pattern} {n : Nat} {s t : Text} {c : CodePoint} {v w : Way}
  {next : Way → Option α}

theorem map_search (f : α → β) (next : Way → Option α) :
    (p.search t next).map f = p.search t fun w => (next w).map f := List.map_findSome?

theorem search_text (next : Way → Option α) :
    (text s).search t next = (t.strip? s).bind fun r => next ⟨s, r, []⟩ := by
  unfold search ways
  cases t.strip? s <;> simp

theorem search_one_cons (next : Way → Option α) :
    (one k).search (c :: t) next = if k.has c then next ⟨[c], t, []⟩ else none := by
  unfold search
  cases h : k.has c <;> simp [ways, h]

theorem search_seq (next : Way → Option α) :
    (seq a b).search t next = a.search t fun v => b.search v.rest fun w => next (v.append w) := by
  unfold search
  rw [ways, findSome?_flatMap]
  simp only [List.findSome?_map]
  rfl

theorem search_alt (next : Way → Option α) :
    (alt a b).search t next = (a.search t next).or (b.search t next) := List.findSome?_append

theorem search_maybe (next : Way → Option α) :
    (maybe a).search t next = (a.search t next).or (next ⟨[], t, []⟩) := by
  unfold search
  rw [ways, List.findSome?_append, List.findSome?_singleton]

theorem search_group (next : Way → Option α) :
    (group n a).search t next = a.search t fun w => next (w.capture n) := List.findSome?_map

theorem search_notNext (next : Way → Option α) :
    (notNext s).search t next = if s.isPrefixOf t then none else next ⟨[], t, []⟩ := by
  unfold search ways
  split <;> simp

theorem search_ending (next : Way → Option α) :
    ending.search t next = if t = [] ∨ t = [.char '\n'] then next ⟨[], t, []⟩ else none := by
  unfold search ways
  split <;> simp

/-! ### Runs -/

theorem search_lazy (next : Way → Option α) :
    (lazy k).search t next = (k.runs t).findSome? fun x => next (.ofRun x) := List.findSome?_map

theorem search_greedy (next : Way → Option α) :
    (greedy k).search t next = (k.runs t).reverse.findSome? fun x => next (.ofRun x) := List.findSome?_map

/-- Nothing is captured in a run. -/
theorem search_lazy_plain (next : Way → Option α) :
    (lazy k).search t next = (lazy k).search t fun w => next ⟨w.taken, w.rest, []⟩ := by
  rw [search_lazy, search_lazy]
  rfl

theorem search_greedy_plain (next : Way → Option α) :
    (greedy k).search t next = (greedy k).search t fun w => next ⟨w.taken, w.rest, []⟩ := by
  rw [search_greedy, search_greedy]
  rfl

theorem search_lazy_nil (next : Way → Option α) : (lazy k).search [] next = next ⟨[], [], []⟩ := by
  rw [search_lazy]
  exact List.findSome?_singleton

theorem search_greedy_nil (next : Way → Option α) : (greedy k).search [] next = next ⟨[], [], []⟩ := by
  rw [search_greedy]
  exact List.findSome?_singleton

/-- A shorter run is tried first. -/
theorem search_lazy_cons (next : Way → Option α) :
    (lazy k).search (c :: t) next = (next ⟨[], c :: t, []⟩).or
      (if k.has c then (lazy k).search t fun w => next ⟨c :: w.taken, w.rest, []⟩ else none) := by
  rw [search_lazy, search_lazy, CharClass.runs, ← List.singleton_append, List.findSome?_append, List.findSome?_singleton]
  cases k.has c with
  | false => rfl
  | true => rw [if_pos rfl, if_pos rfl, List.findSome?_map]; rfl

/-- A run in a line that is as short as what follows it allows.  What follows is found by `front`, and `parse` looks for
it from the left. -/
theorem search_lazy_line (front : Text → Option β) (parse : Text → Option (Text × β))
    (hnil : parse [] = (front []).map fun y => ([], y))
    (hcons : ∀ c t, .char '\n' ∉ c :: t → parse (c :: t) =
      ((front (c :: t)).map fun y => ([], y)).or ((parse t).map fun x => (c :: x.1, x.2)))
    (ht : .char '\n' ∉ t) (f : Text → β → α) :
    (lazy .any).search t (fun w => (front w.rest).map (f w.taken)) = (parse t).map fun x => f x.1 x.2 := by
  induction t generalizing f with
  | nil =>
    rw [search_lazy_nil, hnil, Option.map_map]
    rfl
  | cons c t ih =>
    have hc : CharClass.any.has c = true := decide_eq_true fun hn => ht (hn ▸ List.mem_cons_self)
    rw [search_lazy_cons, if_pos hc, ih (fun h => ht (List.mem_cons_of_mem _ h)) fun l => f (c :: l), hcons c t ht,
      Option.map_or, Option.map_map, Option.map_map]
    rfl

/-- A longer run is tried first. -/
theorem search_greedy_cons (next : Way → Option α) :
    (greedy k).search (c :: t) next =
      (if k.has c then (greedy k).search t fun w => next ⟨c :: w.taken, w.rest, []⟩ else none).or
        (next ⟨[], c :: t, []⟩) := by
  rw [search_greedy, search_greedy, CharClass.runs, List.reverse_cons, List.findSome?_append, List.findSome?_singleton]
  cases k.has c with
  | false => rfl
  | true => rw [if_pos rfl, if_pos rfl, ← List.map_reverse, List.findSome?_map]; rfl

/-- A run in a line that is as long as what follows it allows.  What follows is found by `front`, and `parse` looks for
it from the right. -/
theorem search_greedy_line (front : Text → Option β) (parse : Text → Option (Text × β))
    (hnil : parse [] = (front []).map fun y => ([], y))
    (hcons : ∀ c t, .char '\n' ∉ c :: t → parse (c :: t) =
      ((parse t).map fun x => (c :: x.1, x.2)).or ((front (c :: t)).map fun y => ([], y)))
    (ht : .char '\n' ∉ t) (f : Text → β → α) :
    (greedy .any).search t (fun w => (front w.rest).map (f w.taken)) = (parse t).map fun x => f x.1 x.2 := by
  induction t generalizing f with
  | nil =>
    rw [search_greedy_nil, hnil, Option.map_map]
    rfl
  | cons c t ih =>
    have hc : CharClass.any.has c = true := decide_eq_true fun hn => ht (hn ▸ List.mem_cons_self)
    rw [search_greedy_cons, if_pos hc, ih (fun h => ht (List.mem_cons_of_mem _ h)) fun l => f (c :: l), hcons c t ht,
      Option.map_or, Option.map_map, Option.map_map]
    rfl

/-- The longest run comes first, and behind each other one stands a character of the class. -/
theorem reverse_runs (k : CharClass) (t : Text) : ∃ shorter,
    (k.runs t).reverse = (t.takeWhile k.has, t.dropWhile k.has) :: shorter ∧
      ∀ x ∈ shorter, ∃ c r, x.2 = c :: r ∧ k.has c = true := by
  induction t with
  | nil => exact ⟨[], rfl, by simp⟩
  | cons c t ih =>
    obtain ⟨shorter, heq, hshorter⟩ := ih
    rw [CharClass.runs, List.reverse_cons]
    cases hc : k.has c with
    | false => exact ⟨[], by simp [hc], by simp⟩
    | true =>
      rw [if_pos rfl, ← List.map_reverse, heq]
      refine ⟨shorter.map (fun x => (c :: x.1, x.2)) ++ [([], c :: t)], by simp [hc], fun x hx => ?_⟩
      rcases List.mem_append.1 hx with hx | hx
      · obtain ⟨y, hy, rfl⟩ := List.mem_map.1 hx
        exact hshorter y hy
      · rw [List.mem_singleton.1 hx]
        exact ⟨c, t, rfl, hc⟩

/-- **A run goes on as long as possible** where what follows cannot begin with a character of the class. -/
theorem search_greedy_of_stop (h : ∀ l c r, k.has c = true → next ⟨l, c :: r, []⟩ = none) :
    (greedy k).search t next = next ⟨t.takeWhile k.has, t.dropWhile k.has, []⟩ := by
  obtain ⟨shorter, heq, hshorter⟩ := reverse_runs k t
  have hnone : (shorter.findSome? fun x => next (.ofRun x)) = none := by
    rw [List.findSome?_eq_none_iff]
    rintro ⟨l, r⟩ hx
    obtain ⟨c, r, rfl, hc⟩ := hshorter _ hx
    exact h l c r hc
  rw [search_greedy, heq, ← List.singleton_append, List.findSome?_append, hnone, List.findSome?_singleton]
  exact Option.or_none

theorem search_several_of_stop (h : ∀ l c r, k.has c = true → next ⟨l, c :: r, []⟩ = none) :
    (several k).search t next =
      if t.takeWhile k.has = [] then none else next ⟨t.takeWhile k.has, t.dropWhile k.has, []⟩ := by
  obtain ⟨shorter, heq, hshorter⟩ := reverse_runs k t
  have hnone : ((shorter.filter fun x => x.1 ≠ []).findSome? fun x => next (.ofRun x)) = none := by
    rw [List.findSome?_eq_none_iff]
    rintro ⟨l, r⟩ hx
    obtain ⟨c, r, rfl, hc⟩ := hshorter _ (List.mem_filter.1 hx).1
    exact h l c r hc
  have hsearch : (several k).search t next =
      ((k.runs t).reverse.filter fun x => x.1 ≠ []).findSome? fun x => next (.ofRun x) := List.findSome?_map
  rw [hsearch, heq, List.filter_cons]
  by_cases hne : t.takeWhile k.has = []
  · rw [if_neg (by simpa using hne), if_pos hne, hnone]
  · rw [if_pos (by simpa using hne), if_neg hne, ← List.singleton_append, List.findSome?_append, hnone,
      List.findSome?_singleton]
    exact Option.or_none

/-! ### The match at the front -/

theorem search_of_first? (h : p.first? t = some w) {x : α} (hw : next w = some x) : p.search t next = some x := by
  unfold first? search at *
  cases hways : p.ways t with
  | nil => simp [hways] at h
  | cons v ws =>
    rw [hways] at h
    cases h
    rw [List.findSome?_cons, hw]

theorem first?_seq (ha : a.first? t = some v) (hb : b.first? v.rest = some w) :
    (seq a b).first? t = some (v.append w) := by
  unfold first?
  rw [search_seq]
  exact search_of_first? ha (search_of_first? hb rfl)

theorem first?_seq_of_none (ha : a.first? t = none) : (seq a b).first? t = none := by
  unfold first? search at ha
  have hways : a.ways t = [] := by
    cases hways : a.ways t with
    | nil => rfl
    | cons v ws => simp [hways] at ha
  unfold first?
  rw [search_seq, search, hways]
  rfl

theorem first?_text : (text s).first? t = (t.strip? s).map fun r => ⟨s, r, []⟩ := by
  unfold first?
  rw [search_text]
  cases t.strip? s <;> rfl

theorem first?_group : (group n a).first? t = (a.first? t).map (Way.capture n) := by
  unfold first?
  rw [search_group, map_search]
  rfl

theorem first?_maybe : (maybe a).first? t = some ((a.first? t).getD ⟨[], t, []⟩) := by
  unfold first?
  rw [search_maybe]
  cases a.search t some <;> rfl

theorem first?_greedy : (greedy k).first? t = some ⟨t.takeWhile k.has, t.dropWhile k.has, []⟩ := by
  obtain ⟨shorter, heq, _⟩ := reverse_runs k t
  unfold first?
  rw [search_greedy, heq]
  rfl

/-- **A whole text** is matched by one pattern in front of another if the second matches what the first leaves. -/
theorem whole?_seq : (seq a b).whole? t = a.search t fun v => (b.whole? v.rest).map v.append := by
  unfold whole?
  rw [search_seq]
  simp only [map_search, Way.append_rest, apply_ite (Option.map _), Option.map_some, Option.map_none]
  rfl

/-! ### Matches of a text as a whole -/

theorem whole?_text : (text s).whole? t = if t = s then some ⟨s, [], []⟩ else none := by
  unfold whole?
  rw [search_text]
  cases hstrip : t.strip? s with
  | none =>
    have hne : t ≠ s := by
      rintro rfl
      simpa [hstrip] using Text.strip?_append t []
    rw [if_neg hne]
    rfl
  | some r =>
    rw [Text.strip?_eq_some.1 hstrip, Option.bind_some]
    cases r <;> simp

theorem whole?_text_cons (t : Text) :
    (seq (text [c]) p).whole? (c :: t) = (p.whole? t).map (Way.append ⟨[c], t, []⟩) := by
  rw [whole?_seq, search_text, Text.strip?_cons_self]
  rfl

theorem whole?_text_other (h : t.head? ≠ some c) : (seq (text [c]) p).whole? t = none := by
  rw [whole?_seq, search_text, Text.strip?_of_head?_ne h]
  rfl

/-- A text on one line is matched by a run of any characters. -/
theorem whole?_line (ht : .char '\n' ∉ t) : (group n (greedy .any)).whole? t = some ⟨t, [], [(n, t)]⟩ := by
  have hall : ∀ c ∈ t, CharClass.any.has c = true := fun c hc => decide_eq_true fun hn => ht (hn ▸ hc)
  unfold whole?
  rw [search_group]
  refine search_of_first? first?_greedy ?_
  rw [List.takeWhile_eq_self_iff.2 hall, List.dropWhile_eq_nil_iff.2 hall]
  rfl

theorem whole?_line_ending (ht : .char '\n' ∉ t) : (row [group n (greedy .any), text [c]]).whole? t =
    if t.getLast? = some c then some ⟨t, [], [(n, t.dropLast)]⟩ else none := by
  have hsearch := search_greedy_line (text [c]).whole?
    (fun s => if s.getLast? = some c then some (s.dropLast, ⟨[c], [], []⟩) else none) rfl
    (fun d s _ => by
      rw [whole?_text]
      cases s with
      | nil => by_cases hd : d = c <;> simp [hd]
      | cons e s => by_cases hlast : (e :: s).getLast? = some c <;> simp [List.getLast?_cons_cons, hlast])
    ht fun l w => (⟨l ++ w.taken, w.rest, (n, l) :: w.groups⟩ : Way)
  rw [row_cons_cons, row_singleton, whole?_seq, search_group, search_greedy_plain]
  refine hsearch.trans ?_
  by_cases hlast : t.getLast? = some c
  · obtain ⟨s, rfl⟩ := List.getLast?_eq_some_iff.1 hlast
    simp
  · rw [if_neg hlast, if_neg hlast]
    rfl

/-- A run, a character that is none of the run, and the rest of the line. -/
theorem whole?_run {m : Nat} (hc : k.has c = false) (ht : .char '\n' ∉ t) :
    (row [group n (greedy k), text [c], group m (greedy .any)]).whole? t =
      (t.run? k.has c).map fun x => ⟨t, [], [(n, x.1), (m, x.2)]⟩ := by
  have hjoin : t.takeWhile k.has ++ t.dropWhile k.has = t := List.takeWhile_append_dropWhile
  have hstop : ∀ l d r, k.has d = true →
      ((seq (text [c]) (group m (greedy .any))).whole? (d :: r)).map ((⟨l, d :: r, []⟩ : Way).capture n).append =
        none := by
    intro l d r hd
    rw [whole?_text_other]
    · rfl
    · rintro ⟨⟩
      exact absurd hd (by simp [hc])
  rw [row_cons_cons, row_cons_cons, row_singleton, whole?_seq, search_group, search_greedy_of_stop hstop,
    Way.capture_rest]
  cases hrest : t.dropWhile k.has with
  | nil =>
    rw [Text.run?_eq_none hrest, whole?_text_other (by simp)]
    rfl
  | cons d r =>
    rw [Text.run?_of_dropWhile hrest]
    by_cases hd : d = c
    · subst hd
      rw [hrest] at hjoin
      have hr : .char '\n' ∉ r := fun h => ht (by rw [← hjoin]; simp [h])
      rw [if_pos rfl, whole?_text_cons, whole?_line hr]
      simp [Way.append, Way.capture, hjoin]
    · rw [whole?_text_other (by simpa using hd), if_neg hd]
      rfl

end Search

/-! ## What is matched -/

/-- A character that a match of the pattern may have. -/
def admits : Pattern → CodePoint → Bool
  | text t, c => t.contains c
  | one k, c | lazy k, c | greedy k, c | several k, c => k.has c
  | seq a b, c | alt a b, c => a.admits c || b.admits c
  | maybe a, c | group _ a, c => a.admits c
  | notNext _, _ | ending, _ => false

section Match

variable {k : CharClass} {p : Pattern} {t : Text} {c : CodePoint} {w : Way}

theorem mem_runs {x : Text × Text} : x ∈ k.runs t ↔ t = x.1 ++ x.2 ∧ ∀ c ∈ x.1, k.has c = true := by
  induction t generalizing x with
  | nil =>
    rw [CharClass.runs, List.mem_singleton]
    constructor
    · rintro rfl
      exact ⟨rfl, by simp⟩
    · rintro ⟨hx, _⟩
      exact Prod.ext (List.append_eq_nil_iff.1 hx.symm).1 (List.append_eq_nil_iff.1 hx.symm).2
  | cons c t ih =>
    obtain ⟨l, r⟩ := x
    rw [CharClass.runs, List.mem_cons]
    constructor
    · rintro (hx | hx)
      · cases hx
        exact ⟨rfl, by simp⟩
      · split_ifs at hx with hc
        · obtain ⟨y, hy, hx⟩ := List.mem_map.1 hx
          cases hx
          obtain ⟨rfl, hall⟩ := ih.1 hy
          exact ⟨rfl, by simpa [hc] using hall⟩
        · exact absurd hx List.not_mem_nil
    · rintro ⟨htext, hall⟩
      cases l with
      | nil => exact .inl (by rw [htext]; rfl)
      | cons d l =>
        obtain ⟨rfl, rfl⟩ := List.cons.inj htext
        obtain ⟨hc, hall⟩ := List.forall_mem_cons.1 hall
        rw [if_pos hc]
        exact .inr (List.mem_map.2 ⟨(l, r), ih.2 ⟨rfl, hall⟩, rfl⟩)

/-- **A match** is what stands in front of its rest, and has only characters of the pattern. -/
theorem of_mem_ways (h : w ∈ p.ways t) : t = w.taken ++ w.rest ∧ ∀ c ∈ w.taken, p.admits c = true := by
  induction p generalizing t w with
  | text s =>
    unfold ways at h
    split at h
    · next r hr =>
      rw [List.mem_singleton.1 h]
      exact ⟨Text.strip?_eq_some.1 hr, fun c hc => by simpa [admits] using hc⟩
    · exact absurd h List.not_mem_nil
  | one k =>
    unfold ways at h
    split at h
    · next c r =>
      split_ifs at h with hc
      · rw [List.mem_singleton.1 h]
        exact ⟨rfl, by simpa [admits] using hc⟩
      · exact absurd h List.not_mem_nil
    · exact absurd h List.not_mem_nil
  | lazy k =>
    obtain ⟨x, hx, rfl⟩ := List.mem_map.1 h
    exact mem_runs.1 hx
  | greedy k =>
    obtain ⟨x, hx, rfl⟩ := List.mem_map.1 h
    exact mem_runs.1 (List.mem_reverse.1 hx)
  | several k =>
    obtain ⟨x, hx, rfl⟩ := List.mem_map.1 h
    exact mem_runs.1 (List.mem_reverse.1 (List.mem_filter.1 hx).1)
  | seq a b iha ihb =>
    obtain ⟨v, hv, hw⟩ := List.mem_flatMap.1 h
    obtain ⟨u, hu, rfl⟩ := List.mem_map.1 hw
    obtain ⟨ht, hva⟩ := iha hv
    obtain ⟨hrest, hub⟩ := ihb hu
    refine ⟨by rw [ht, hrest]; exact (List.append_assoc ..).symm, fun c hc => ?_⟩
    rw [admits, Bool.or_eq_true]
    exact (List.mem_append.1 hc).imp (hva c) (hub c)
  | alt a b iha ihb =>
    simp only [admits, Bool.or_eq_true]
    rcases List.mem_append.1 h with h | h
    · exact ⟨(iha h).1, fun c hc => .inl ((iha h).2 c hc)⟩
    · exact ⟨(ihb h).1, fun c hc => .inr ((ihb h).2 c hc)⟩
  | maybe a ih =>
    rcases List.mem_append.1 h with h | h
    · exact ih h
    · rw [List.mem_singleton.1 h]
      exact ⟨rfl, by simp⟩
  | group n a ih =>
    obtain ⟨v, hv, rfl⟩ := List.mem_map.1 h
    exact ih (w := v) hv
  | notNext s =>
    unfold ways at h
    split_ifs at h
    · exact absurd h List.not_mem_nil
    · rw [List.mem_singleton.1 h]
      exact ⟨rfl, by simp⟩
  | ending =>
    unfold ways at h
    split_ifs at h
    · rw [List.mem_singleton.1 h]
      exact ⟨rfl, by simp⟩
    · exact absurd h List.not_mem_nil

theorem of_first? (h : p.first? t = some w) : t = w.taken ++ w.rest ∧ ∀ c ∈ w.taken, p.admits c = true := by
  obtain ⟨v, hv, hw⟩ := List.exists_of_findSome?_eq_some h
  cases hw
  exact of_mem_ways hv

theorem of_whole? (h : p.whole? t = some w) : t = w.taken ∧ ∀ c ∈ t, p.admits c = true := by
  obtain ⟨v, hv, hw⟩ := List.exists_of_findSome?_eq_some h
  split_ifs at hw with hrest
  cases hw
  obtain ⟨ht, hadmits⟩ := of_mem_ways hv
  rw [hrest, List.append_nil] at ht
  exact ⟨ht, by rwa [ht]⟩

/-- A text with a character that the pattern does not admit is no match. -/
theorem whole?_eq_none (hc : p.admits c = false) (ht : c ∈ t) : p.whole? t = none := by
  rw [Option.eq_none_iff_forall_not_mem]
  intro w hw
  rw [(of_whole? hw).2 c ht] at hc
  exact absurd hc (by simp)

/-! ### What can be left -/

/-- Some way to match the pattern at the front of a text leaves a rest of it. -/
def Leaves (p : Pattern) (t r : Text) : Prop := ∃ w ∈ p.ways t, w.rest = r

theorem exists_whole? : (∃ w, p.whole? t = some w) ↔ p.Leaves t [] := by
  have hsome : (p.whole? t).isSome ↔ p.Leaves t [] := by
    unfold whole? search Leaves
    rw [List.findSome?_isSome_iff]
    refine exists_congr fun w => and_congr_right fun _ => ?_
    split_ifs with hw <;> simp [hw]
  rw [← hsome, Option.isSome_iff_exists]

theorem leaves_text {s r : Text} : (text s).Leaves t r ↔ t = s ++ r := by
  rw [← Text.strip?_eq_some, Leaves, ways]
  cases t.strip? s <;> simp

theorem leaves_one {r : Text} : (one k).Leaves t r ↔ ∃ c, t = c :: r ∧ k.has c = true := by
  unfold Leaves ways
  cases t with
  | nil => simp
  | cons c t =>
    by_cases hc : k.has c = true
    · simp [hc]
    · simp only [if_neg hc, List.not_mem_nil, false_and, exists_false, false_iff]
      rintro ⟨d, heq, hd⟩
      cases heq
      exact hc hd

theorem leaves_lazy {r : Text} : (lazy k).Leaves t r ↔ ∃ l, t = l ++ r ∧ ∀ c ∈ l, k.has c = true := by
  constructor
  · rintro ⟨w, hw, rfl⟩
    obtain ⟨x, hx, rfl⟩ := List.mem_map.1 hw
    exact ⟨x.1, mem_runs.1 hx⟩
  · rintro ⟨l, h⟩
    exact ⟨_, List.mem_map_of_mem (mem_runs (x := (l, r)) |>.2 h), rfl⟩

theorem leaves_seq {a b : Pattern} {r : Text} : (seq a b).Leaves t r ↔ ∃ s, a.Leaves t s ∧ b.Leaves s r := by
  constructor
  · rintro ⟨w, hw, rfl⟩
    obtain ⟨v, hv, hw⟩ := List.mem_flatMap.1 hw
    obtain ⟨u, hu, rfl⟩ := List.mem_map.1 hw
    exact ⟨v.rest, ⟨v, hv, rfl⟩, u, hu, rfl⟩
  · rintro ⟨_, ⟨v, hv, rfl⟩, u, hu, rfl⟩
    exact ⟨v.append u, List.mem_flatMap.2 ⟨v, hv, List.mem_map_of_mem hu⟩, rfl⟩

theorem leaves_alt {a b : Pattern} {r : Text} : (alt a b).Leaves t r ↔ a.Leaves t r ∨ b.Leaves t r := by
  simp only [Leaves, ways, List.mem_append, or_and_right, exists_or]

theorem leaves_group {a : Pattern} {n : Nat} {r : Text} : (group n a).Leaves t r ↔ a.Leaves t r := by
  simp only [Leaves, ways, List.mem_map, exists_exists_and_eq_and, Way.capture_rest]

theorem leaves_ending {r : Text} : ending.Leaves t r ↔ t = r ∧ (t = [] ∨ t = [.char '\n']) := by
  unfold Leaves ways
  split_ifs with h <;> simp [h]

/-! ### Matches one behind the other -/

theorem all_nil : p.all [] = (p.first? []).toList := by
  rw [all]

theorem all_of_none (h : p.first? (c :: t) = none) : p.all (c :: t) = p.all t := by
  rw [all, h]

theorem all_of_some (h : p.first? t = some w) (hw : w.taken ≠ []) : p.all t = w :: p.all w.rest := by
  have hlength : w.rest.length < t.length := by
    rw [(of_first? h).1, List.length_append]
    exact Nat.lt_add_of_pos_left (List.length_pos_iff.2 hw)
  cases t with
  | nil => exact absurd hlength (by simp)
  | cons c t =>
    rw [all, h]
    exact if_pos (Nat.le_of_lt_succ hlength)

end Match

end Pattern

end RequestRules
