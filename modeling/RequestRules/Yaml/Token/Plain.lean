import RequestRules.Yaml.Spot

/-!
# Plain scalars

A plain scalar stands without quotes.  It ends before `: `, ` #`, a line that is not indented enough, or a mark between
documents, and inside of brackets also before the characters that have a meaning there.  Line breaks are folded.
-/

namespace RequestRules.Yaml.Plain

open Spot

def isFlowEnd (c : CodePoint) : Bool := c = ',' ∨ c = '?' ∨ c = '[' ∨ c = ']' ∨ c = '\x7b' ∨ c = '\x7d'

/-- The characters behind a `:` that end a plain scalar inside of brackets. -/
def isFlowMark (c : CodePoint) : Bool := c = ',' ∨ c = '[' ∨ c = ']' ∨ c = '\x7b' ∨ c = '\x7d'

/-- The word goes on with the first of the spots. -/
def continues (flow : Bool) (c : CodePoint) (rest : List Spot) : Bool :=
  !(isGap c || (c = ':' && (isGap (firstChar rest) || (flow && isFlowMark (firstChar rest)))) || (flow && isFlowEnd c))

def word (flow : Bool) : List Spot → Text × List Spot
  | [] => ([], [])
  | s :: ss =>
    if continues flow s.char ss then let (t, rest) := word flow ss; (s.char :: t, rest) else ([], s :: ss)

/-- The breaks at the beginning of lines, and whether they end in a mark between documents. -/
def breaks : List Spot → Text × Bool × List Spot
  | [] => ([], false, [])
  | s :: ss =>
    if s.char = ' ' then breaks ss
    else if isBreak s.char then
      if atDocumentMark ss then ([s.char], true, ss)
      else let (t, mark, rest) := breaks ss; (s.char :: t, mark, rest)
    else ([], false, s :: ss)

/-- The white space behind a word, if the scalar can go on there, and whether it has a line break. -/
def gap (ss : List Spot) : Option Text × Bool × List Spot :=
  let (spaces, rest) := takeWhile (· = .char ' ') ss
  match rest with
  | s :: rest' =>
    if isBreak s.char then
      if atDocumentMark rest' then (none, true, rest')
      else match breaks rest' with
        | (_, true, rest'') => (none, true, rest'')
        | (t, false, rest'') => (some (fold s.char t), true, rest'')
    else (some spaces, false, rest)
  | [] => (some spaces, false, [])

/-- The words behind a gap; `margin` is the least column of a line. -/
def words (flow : Bool) (margin : Nat) : (fuel : Nat) → (before : Text) → (broken : Bool) → List Spot →
    Text × Bool × List Spot
  | 0, _, broken, ss => ([], broken, ss)
  | fuel + 1, before, broken, ss =>
    if firstChar ss = '#' then ([], broken, ss)
    else match word flow ss with
      | ([], _) => ([], broken, ss)
      | (t, rest) =>
        match gap rest with
        | (some (c :: g), broken, rest) =>
          if firstChar rest = '#' ∨ (!flow ∧ firstColumn rest < margin) then (before ++ t, broken, rest)
          else
            let (u, broken, rest) := words flow margin fuel (c :: g) broken rest
            (before ++ t ++ u, broken, rest)
        | (_, broken, rest) => (before ++ t, broken, rest)

/-- The scalar at the first spot, whether a line break follows it, and the spots behind it. -/
def read (flow : Bool) (margin : Nat) (ss : List Spot) : Text × Bool × List Spot :=
  words flow margin ss.length [] false ss

end RequestRules.Yaml.Plain
