import RequestRules.Text

/-!
# White space

Two classes: the six blank characters of ASCII, and the 29 characters that Unicode calls white space or that separate
paragraphs (bidirectional classes `WS`, `B`, `S`).  `trim` takes the second class off both ends.
-/

namespace RequestRules

/-- Space, tab, newline, carriage return, vertical tab, form feed. -/
def isAsciiBlank (c : CodePoint) : Bool :=
  c = ' ' ∨ c = '\t' ∨ c = '\n' ∨ c = '\r' ∨ c = '\x0b' ∨ c = '\x0c'

def isBlank (c : CodePoint) : Bool :=
  let n := c.toNat
  (0x09 ≤ n ∧ n ≤ 0x0d) ∨ (0x1c ≤ n ∧ n ≤ 0x20) ∨ n = 0x85 ∨ n = 0xa0 ∨ n = 0x1680 ∨
    (0x2000 ≤ n ∧ n ≤ 0x200a) ∨ n = 0x2028 ∨ n = 0x2029 ∨ n = 0x202f ∨ n = 0x205f ∨ n = 0x3000

/-- The text without white space at its ends. -/
def Text.trim (t : Text) : Text :=
  ((t.dropWhile isBlank).reverse.dropWhile isBlank).reverse

theorem Text.trim_eq_self {t : Text} (h : ∀ c ∈ t, isBlank c = false) : t.trim = t := by
  have hdrop : ∀ s : Text, (∀ c ∈ s, isBlank c = false) → s.dropWhile isBlank = s := by
    intro s hs
    cases s with
    | nil => rfl
    | cons c s => rw [List.dropWhile_cons_of_neg (by simp [hs c])]
  unfold trim
  rw [hdrop t h, hdrop t.reverse fun c hc => h c (List.mem_reverse.1 hc), List.reverse_reverse]

/-- The maximal runs of characters that are no white space. -/
def Text.words (t : Text) : List Text :=
  let step (c : CodePoint) : List Text × Bool → List Text × Bool
    | (ws, inWord) =>
      if isBlank c then (ws, false)
      else match inWord, ws with
        | true, w :: ws => ((c :: w) :: ws, true)
        | _, ws => ([c] :: ws, true)
  (t.foldr step ([], false)).1

end RequestRules
