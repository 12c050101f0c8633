import RequestRules.Proofs.Grammar.Candidates
import RequestRules.Proofs.Pattern

/-!
# The pattern of a rule for polling

A rule for polling is cut as by a backtracking search for `(.*?)(\{.*\})?:(?!//)(\d*):(.*)` in the whole text.  The
search is followed from the right to the left of the pattern, `whole?_tailPattern` for what stands behind the headers,
`whole?_frontPattern` for the headers, and `match?_eq_whole?` for the URL in front of them: each run of the pattern is a
recursion of the reader.

`read_first_way` says what a rule is read as, and when it is refused.
-/

namespace RequestRules

namespace Inbound

/-- `:(?!//)(\d*):(.*)` -/
def tailPattern : Pattern :=
  .row [.text [':'], .notNext (.of "//"), .group 3 (.greedy .digit), .text [':'], .group 4 (.greedy .any)]

/-- `(\{.*\})` -/
def headerPattern : Pattern := .group 2 (.row [.text ['{'], .greedy .any, .text ['}']])

/-- `(.*?)(\{.*\})?:(?!//)(\d*):(.*)` -/
def pattern : Pattern := .row [.group 1 (.lazy .any), .maybe headerPattern, tailPattern]

def Parts.ofWay (w : Way) : Parts where
  url := (w.group? 1).getD []
  header := w.group? 2
  digits := (w.group? 3).getD []
  transformation := (w.group? 4).getD []

theorem shown_pattern : pattern.shown = GrammarError.inboundShape := by decide

/-! ## The search -/

/-- `(\d*):(.*)` -/
def digitsPattern : Pattern := .row [.group 3 (.greedy .digit), .text [':'], .group 4 (.greedy .any)]

theorem whole?_digitsPattern {t : Text} (ht : .char '\n' ∉ t) :
    digitsPattern.whole? t = (t.run? CodePoint.isDigit ':').map fun x => ⟨t, [], [(3, x.1), (4, x.2)]⟩ :=
  Pattern.whole?_run (by decide) ht

theorem whole?_tailPattern {t : Text} (ht : .char '\n' ∉ t) :
    tailPattern.whole? t = (tail? t).map fun x => ⟨t, [], [(3, x.1), (4, x.2)]⟩ := by
  have htail : tailPattern = .seq (.text [':']) (.seq (.notNext (.of "//")) digitsPattern) := rfl
  rw [htail]
  by_cases hhead : t.head? = some (.char ':')
  · obtain ⟨t, rfl⟩ := List.head?_eq_some_iff.1 hhead
    have ht : .char '\n' ∉ t := fun h => ht (List.mem_cons_of_mem _ h)
    rw [Pattern.whole?_text_cons, Pattern.whole?_seq, Pattern.search_notNext, whole?_digitsPattern ht, tail?]
    split
    · rfl
    · cases Text.run? CodePoint.isDigit ':' t <;> rfl
  · rw [Pattern.whole?_text_other hhead]
    unfold tail?
    split
    · exact absurd rfl hhead
    · rfl

theorem whole?_ofWay {t : Text} (ht : .char '\n' ∉ t) :
    (tailPattern.whole? t).map Parts.ofWay = (tail? t).map fun x => ⟨[], none, x.1, x.2⟩ := by
  rw [whole?_tailPattern ht]
  cases tail? t <;> rfl

/-- The longest headers are tried first. -/
theorem search_longestHeader? {α : Type} {t : Text} (ht : .char '\n' ∉ t) (f : Text → Parts → α) :
    (Pattern.greedy .any).search t (fun w => (Text.strip? w.rest ['}']).bind fun r =>
      ((tailPattern.whole? r).map Parts.ofWay).map (f (w.taken ++ [.char '}']))) =
    (longestHeader? t).map fun x => f x.1 ⟨[], none, x.2.1, x.2.2⟩ := by
  induction t generalizing f with
  | nil =>
    rw [Pattern.search_greedy_nil]
    rfl
  | cons c t ih =>
    have hc : CharClass.any.has c = true := decide_eq_true fun hn => ht (hn ▸ List.mem_cons_self)
    have hline : .char '\n' ∉ t := fun h => ht (List.mem_cons_of_mem _ h)
    rw [Pattern.search_greedy_cons, if_pos hc, longestHeader?]
    simp only [List.cons_append, List.nil_append, ih hline fun h => f (c :: h)]
    cases longestHeader? t with
    | some x => rfl
    | none =>
      rw [Option.map_none, Option.none_or]
      by_cases hbrace : c = '}'
      · subst hbrace
        rw [if_pos rfl, Text.strip?_cons_self, Option.bind_some, whole?_ofWay hline]
        cases tail? t <;> rfl
      · rw [if_neg hbrace, Text.strip?_of_head?_ne (by simpa using hbrace)]
        rfl

/-- `(\{.*\})?:(?!//)(\d*):(.*)` -/
def frontPattern : Pattern := .row [.maybe headerPattern, tailPattern]

theorem headerPattern_eq :
    headerPattern = .group 2 (.seq (.text ['{']) (.seq (.greedy .any) (.text ['}']))) := rfl

theorem search_headerPattern_cons {t : Text} (ht : .char '\n' ∉ t) :
    (headerPattern.search ('{' :: t) fun v => ((tailPattern.whole? v.rest).map v.append).map Parts.ofWay) =
      (longestHeader? t).map fun x => ⟨[], some ('{' :: x.1), x.2.1, x.2.2⟩ := by
  have hlongest := search_longestHeader? ht fun h p => { p with header := some ('{' :: h) }
  rw [headerPattern_eq, Pattern.search_group, Pattern.search_seq, Pattern.search_text, Text.strip?_cons_self,
    Option.bind_some, Pattern.search_seq, Pattern.search_greedy_plain]
  simp only [Option.map_map] at hlongest
  simp only [Pattern.search_text, Option.map_map]
  exact hlongest

theorem search_headerPattern_other {α : Type} {t : Text} (h : t.head? ≠ some (.char '{')) (next : Way → Option α) :
    headerPattern.search t next = none := by
  rw [headerPattern_eq, Pattern.search_group, Pattern.search_seq, Pattern.search_text, Text.strip?_of_head?_ne h]
  rfl

theorem whole?_frontPattern {t : Text} (ht : .char '\n' ∉ t) : (frontPattern.whole? t).map Parts.ofWay = front? t := by
  have htail : ((tailPattern.whole? t).map (Way.append ⟨[], t, []⟩)).map Parts.ofWay =
      (tail? t).map fun x => ⟨[], none, x.1, x.2⟩ := by
    rw [Option.map_map]
    exact whole?_ofWay ht
  rw [frontPattern, Pattern.row_cons_cons, Pattern.row_singleton, Pattern.whole?_seq, Pattern.search_maybe,
    Option.map_or, Pattern.map_search, htail, front?]
  by_cases hhead : t.head? = some (.char '{')
  · obtain ⟨t, rfl⟩ := List.head?_eq_some_iff.1 hhead
    rw [search_headerPattern_cons fun h => ht (List.mem_cons_of_mem _ h), if_pos hhead, List.tail_cons]
    cases longestHeader? t <;> rfl
  · rw [search_headerPattern_other hhead, if_neg hhead]
    rfl

/-- The shortest URL is tried first. -/
theorem search_parts? {t : Text} (ht : .char '\n' ∉ t) :
    (Pattern.lazy .any).search t (fun w => ((frontPattern.whole? w.rest).map Parts.ofWay).map fun p =>
      { p with url := w.taken }) = parts? t := by
  have hfront : ∀ s, (front? s).map (fun p => (p.url, { p with url := [] })) = (front? s).map fun p => ([], p) := by
    refine fun s => Option.map_congr fun p hp => ?_
    obtain ⟨url, header, digits, transformation⟩ := p
    cases front?_url hp
    rfl
  have hsearch := Pattern.search_lazy_line (fun s => (frontPattern.whole? s).map Parts.ofWay)
    (fun s => (parts? s).map fun p => (p.url, { p with url := [] })) (by rw [whole?_frontPattern (by simp)]; rfl)
    (fun c s hs => by rw [whole?_frontPattern hs, parts?_cons, Option.map_or, hfront, Option.map_map, Option.map_map]; rfl)
    ht fun u p => { p with url := u }
  rw [hsearch, Option.map_map]
  exact Option.map_id'

/-- **The search cuts a text** as it is read. -/
theorem match?_eq_whole? (t : Text) : match? t = (pattern.whole? t).map Parts.ofWay := by
  by_cases ht : .char '\n' ∈ t
  · rw [Pattern.whole?_eq_none (by decide) ht, match?_of_newline ht]
    rfl
  · have hpattern : pattern = .seq (.group 1 (.lazy .any)) frontPattern := rfl
    have hparts := search_parts? ht
    rw [match?_of_line ht, hpattern, Pattern.whole?_seq, Pattern.search_group, Pattern.search_lazy_plain,
      Pattern.map_search]
    simp only [Option.map_map] at hparts ⊢
    exact hparts.symm

/-! ## What a rule is read as -/

theorem read_of_none {t : Text} (h : match? t = none) : read t = .error (.grammar (.inbound t)) := by
  unfold read
  rw [show (if t.contains '\n' then none else parts? t) = none from h]

theorem read_of_some {t : Text} {p : Parts} (h : match? t = some p) : read t =
    if p.digits.isEmpty then .error (.grammar (.interval t))
    else if Numeral.limit < p.digits.length then .error (.longInterval p.digits.length)
    else .ok {
      url := p.url.replace (.of "\\\"") []
      headers := Header.parseOption p.header
      interval := Numeral.value p.digits
      transformation := p.transformation.replace (.of "\\\"") ['"'] } := by
  unfold read
  rw [show (if t.contains '\n' then none else parts? t) = some p from h]

/-- A rule is refused for its grammar where it cannot be cut, or has no digits where it is cut. -/
theorem read_grammar_iff {t : Text} {e : GrammarError} : read t = .error (.grammar e) ↔
    match? t = none ∧ e = .inbound t ∨ ∃ p, match? t = some p ∧ p.digits = [] ∧ e = .interval t := by
  cases h : match? t with
  | none =>
    rw [read_of_none h]
    simp [eq_comm]
  | some p =>
    rw [read_of_some h]
    by_cases hdigits : p.digits = []
    · simp [hdigits, eq_comm]
    · rw [if_neg (by simpa using hdigits)]
      split_ifs <;> simp [hdigits]

/-- **A rule for polling** is cut as by a backtracking search for its pattern in the whole text, that is, in the first
of all ways to write the text, with the shortest URL and then with the longest headers.  It is refused for its grammar,
and the text and the pattern are reported, exactly if there is no way, or no digit in the first one. -/
theorem read_first_way (t : Text) :
    match? t = (pattern.whole? t).map Parts.ofWay ∧
      (match? t = none ↔ ∀ q : Parts, ¬ q.Writes t) ∧
      (∀ p, match? t = some p ↔ p.Writes t ∧ ∀ q : Parts, q.Writes t → q = p ∨ p.Before q) ∧
      ((∃ e, read t = .error (.grammar e)) ↔ match? t = none ∨ ∃ p, match? t = some p ∧ p.digits = []) ∧
      (∀ e, read t = .error (.grammar e) → e.text = t ∧ e.expected = pattern.shown) ∧
      ∀ p, match? t = some p → p.digits ≠ [] → p.digits.length ≤ Numeral.limit → read t = .ok {
        url := p.url.replace (.of "\\\"") []
        headers := Header.parseOption p.header
        interval := Numeral.value p.digits
        transformation := p.transformation.replace (.of "\\\"") ['"'] } := by
  refine ⟨match?_eq_whole? t, match?_eq_none_iff, fun p => match?_eq_some_iff, ⟨?_, ?_⟩, ?_, ?_⟩
  · rintro ⟨e, he⟩
    rcases read_grammar_iff.1 he with ⟨hnone, _⟩ | ⟨p, hp, hdigits, _⟩
    · exact .inl hnone
    · exact .inr ⟨p, hp, hdigits⟩
  · rintro (hnone | ⟨p, hp, hdigits⟩)
    · exact ⟨_, read_grammar_iff.2 (.inl ⟨hnone, rfl⟩)⟩
    · exact ⟨_, read_grammar_iff.2 (.inr ⟨p, hp, hdigits, rfl⟩)⟩
  · intro e he
    rw [shown_pattern]
    rcases read_grammar_iff.1 he with ⟨_, rfl⟩ | ⟨p, _, _, rfl⟩ <;> exact ⟨rfl, rfl⟩
  · intro p hp hdigits hlimit
    rw [read_of_some hp, if_neg (by simpa using hdigits), if_neg (Nat.not_lt.2 hlimit)]

end Inbound

end RequestRules
