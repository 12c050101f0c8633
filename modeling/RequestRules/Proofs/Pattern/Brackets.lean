import RequestRules.Proofs.Grammar.Append
import RequestRules.Proofs.Pattern
import RequestRules.Proofs.Rejection

/-!
# The pattern of a segment

A configuration text is accepted if it is a match of `(<|>)\[(.*?)\](\s|$)` as a whole, and its segments are the matches
that are found one behind the other.  Acceptance and search do not look at the same brackets: the match of the whole text
goes on to the last bracket (`isSequence_iff_whole?`), each match that is found ends at the first bracket before white
space or the end (`opening?_eq_some`).

* `opens_iff` — the match at the front of a text is the segment there;
* `scan_eq_all` — cutting finds the matches;
* `segments_search` — when a configuration text is refused, and what is cut out of it otherwise.
-/

namespace RequestRules

namespace Direction

/-- `\](\s|$)` -/
def closingPattern : Pattern := .row [.text [']'], .group 3 (.alt (.one .blank) .ending)]

/-- `(<|>)\[(.*?)\](\s|$)` -/
def pattern : Pattern :=
  .row [.group 1 (.alt (.text ['<']) (.text ['>'])), .text ['['], .group 2 (.lazy .any), closingPattern]

theorem shown_pattern : pattern.shown = GrammarError.segmentShape := by decide

/-! ## The segment at the front -/

section Search

variable {α : Type} {t : Text} {c : CodePoint}

theorem search_closingPattern_other (h : t.head? ≠ some (.char ']')) (next : Way → Option α) :
    closingPattern.search t next = none := by
  rw [closingPattern, Pattern.row_cons_cons, Pattern.row_singleton, Pattern.search_seq, Pattern.search_text,
    Text.strip?_of_head?_ne h]
  rfl

theorem search_closingPattern_cons (f : Text → α) : closingPattern.search (']' :: c :: t) (fun w => some (f w.rest)) =
    if isAsciiBlank c then some (f t) else none := by
  rw [closingPattern, Pattern.row_cons_cons, Pattern.row_singleton, Pattern.search_seq, Pattern.search_text,
    Text.strip?_cons_self, Option.bind_some, Pattern.search_group, Pattern.search_alt, Pattern.search_one_cons,
    Pattern.search_ending]
  by_cases hc : isAsciiBlank c = true
  · rw [if_pos hc, if_pos (show CharClass.blank.has c = true from hc)]
    rfl
  · have hending : ¬ (c :: t = [] ∨ c :: t = [.char '\n']) := by
      rintro (h | h)
      · exact absurd h (by simp)
      · cases h
        exact hc rfl
    rw [if_neg hc, if_neg (show ¬ CharClass.blank.has c = true from hc), if_neg hending]
    rfl

theorem closing?_cons (hn : c ≠ '\n') (hc : c ≠ ']') : closing? (c :: t) = (closing? t).map fun x => (c :: x.1, x.2) := by
  rw [closing?.eq_def]
  simp only [if_neg hn, if_neg hc]

theorem closing?_cons_cons : closing? (']' :: c :: t) =
    if isAsciiBlank c then some ([], t) else (closing? (c :: t)).map fun x => (.char ']' :: x.1, x.2) := rfl

/-- A bracket closes where the search ends. -/
theorem search_closing? (t : Text) (f : Text → Text → α) :
    (Pattern.lazy .any).search t (fun v => closingPattern.search v.rest fun w => some (f v.taken w.rest)) =
      (closing? t).map fun x => f x.1 x.2 := by
  induction t generalizing f with
  | nil => rw [Pattern.search_lazy_nil, search_closingPattern_other (by simp)]; rfl
  | cons c t ih =>
    rw [Pattern.search_lazy_cons]
    by_cases hn : c = '\n'
    · subst hn
      rw [search_closingPattern_other (by simp), if_neg (by decide)]
      rfl
    · rw [if_pos (show CharClass.any.has c = true from decide_eq_true hn), ih fun i => f (c :: i)]
      by_cases hc : c = ']'
      · subst hc
        cases t with
        | nil => rfl
        | cons d t =>
          rw [search_closingPattern_cons, closing?_cons_cons]
          cases isAsciiBlank d with
          | true => rfl
          | false =>
            rw [if_neg (by simp), if_neg (by simp), Option.none_or, Option.map_map]
            rfl
      · rw [search_closingPattern_other (by simpa using hc), closing?_cons hn hc, Option.none_or, Option.map_map]
        rfl

/-- `(<|>)` -/
def markPattern : Pattern := .group 1 (.alt (.text ['<']) (.text ['>']))

theorem search_markPattern_cons (hc : isMark c = true) (next : Way → Option α) :
    markPattern.search (c :: t) next = next ⟨[c], t, [(1, [c])]⟩ := by
  rw [markPattern, Pattern.search_group, Pattern.search_alt, Pattern.search_text, Pattern.search_text]
  rcases isMark_iff.1 hc with rfl | rfl
  · rw [Text.strip?_cons_self, Text.strip?_of_head?_ne (by simp)]
    exact Option.or_none
  · rw [Text.strip?_cons_self, Text.strip?_of_head?_ne (by simp)]
    rfl

theorem search_markPattern_other (h : ∀ c ∈ t.head?, isMark c = false) (next : Way → Option α) :
    markPattern.search t next = none := by
  have hother : ∀ m, isMark m = true → t.head? ≠ some m := fun m hm hhead => by
    rw [h m hhead] at hm
    exact absurd hm (by simp)
  rw [markPattern, Pattern.search_group, Pattern.search_alt, Pattern.search_text, Pattern.search_text,
    Text.strip?_of_head?_ne (hother '<' rfl), Text.strip?_of_head?_ne (hother '>' rfl)]
  rfl

theorem search_opening? (t : Text) (f : Option Text → Option Text → Text → α) :
    pattern.search t (fun w => some (f (w.group? 1) (w.group? 2) w.rest)) =
      (opening? t).map fun x => f (some [x.1]) (some x.2.1) x.2.2 := by
  have hpattern : pattern = .seq markPattern (.seq (.text ['[']) (.seq (.group 2 (.lazy .any)) closingPattern)) := rfl
  rw [hpattern, Pattern.search_seq]
  cases t with
  | nil => rfl
  | cons c t =>
    by_cases hmark : isMark c = true
    · rw [search_markPattern_cons hmark, Pattern.search_seq, Pattern.search_text]
      by_cases hhead : t.head? = some (.char '[')
      · obtain ⟨t, rfl⟩ := List.head?_eq_some_iff.1 hhead
        rw [Text.strip?_cons_self, Option.bind_some, Pattern.search_seq, Pattern.search_group, opening?, if_pos hmark,
          Option.map_map]
        exact search_closing? t fun i r => f (some [c]) (some i) r
      · rw [Text.strip?_of_head?_ne hhead, opening?_eq_none (.inr hhead)]
        rfl
    · have hother : isMark c = false := by simpa using hmark
      rw [search_markPattern_other (by simpa using hother), opening?_eq_none (.inl hother)]
      rfl

end Search

/-- **The segment at the front** of a text is the match at its front. -/
theorem first?_eq (t : Text) : ((pattern.first? t).map fun w => (w.group? 1, w.group? 2, w.rest)) =
    (opening? t).map fun x => (some [x.1], some x.2.1, x.2.2) := by
  rw [Pattern.first?, Pattern.map_search]
  exact search_opening? t fun m i r => (m, i, r)

theorem first?_eq_none {t : Text} : pattern.first? t = none ↔ opening? t = none := by
  rw [← Option.map_eq_none_iff (f := fun w => (w.group? 1, w.group? 2, w.rest)), first?_eq, Option.map_eq_none_iff]

theorem exists_first? {t i r : Text} {c : CodePoint} : opening? t = some (c, i, r) ↔
    ∃ w, pattern.first? t = some w ∧ w.group? 1 = some [c] ∧ w.group? 2 = some i ∧ w.rest = r := by
  have h := first?_eq t
  constructor
  · intro hopen
    rw [hopen] at h
    obtain ⟨w, hw, heq⟩ := Option.map_eq_some_iff.1 h
    simp only [Prod.mk.injEq] at heq
    exact ⟨w, hw, heq.1, heq.2.1, heq.2.2⟩
  · rintro ⟨w, hw, h1, h2, rfl⟩
    rw [hw, Option.map_some, h1, h2] at h
    obtain ⟨⟨c', i', r'⟩, hopen, heq⟩ := Option.map_eq_some_iff.1 h.symm
    cases heq
    exact hopen

/-! ## Where it ends -/

/-- A segment stands at the front of a text: in brackets behind its mark, on one line, and without a bracket before white
space in it.  White space follows, with which it ends, or the end of the text. -/
structure Opens (t : Text) (d : Direction) (inner rest : Text) : Prop where
  text : ∃ tail, t = bracket (d, inner) ++ tail ∧ (∀ c ∈ tail.head?, isAsciiBlank c = true) ∧ rest = tail.tail
  inner : inner.Enclosable

theorem closing?_eq_some {t i r : Text} : closing? t = some (i, r) ↔
    i.Enclosable ∧ ∃ tail, t = i ++ .char ']' :: tail ∧ (∀ c ∈ tail.head?, isAsciiBlank c = true) ∧ r = tail.tail := by
  constructor
  · intro h
    induction t generalizing i with
    | nil => exact absurd h (by simp [closing?])
    | cons c t ih =>
      -- the bracket is behind the first character, and none is closed there
      have hlater : c ≠ '\n' → (c = ']' → ∀ d ∈ t.head?, isAsciiBlank d = false) →
          ((closing? t).map fun x => (c :: x.1, x.2)) = some (i, r) →
          i.Enclosable ∧ ∃ tail, c :: t = i ++ .char ']' :: tail ∧ (∀ c ∈ tail.head?, isAsciiBlank c = true) ∧
            r = tail.tail := by
        intro hn hc hmap
        obtain ⟨⟨i, r⟩, hclose, heq⟩ := Option.map_eq_some_iff.1 hmap
        cases heq
        obtain ⟨⟨hline, hpair⟩, tail, rfl, htail⟩ := ih hclose
        refine ⟨⟨by simp [hline, Ne.symm hn], ?_⟩, tail, rfl, htail⟩
        cases i with
        | nil => exact List.IsChain.singleton _
        | cons d i =>
          refine Text.noPair_cons_cons.2 ⟨fun hcd => ?_, hpair⟩
          rw [hc (by simpa using hcd.1) d rfl] at hcd
          exact absurd hcd.2 (by simp)
      by_cases hn : c = '\n'
      · subst hn
        exact absurd h (by simp [closing?])
      · by_cases hc : c = ']'
        · subst hc
          cases t with
          | nil =>
            cases h
            exact ⟨by decide, [], rfl, by simp, rfl⟩
          | cons d t =>
            rw [closing?_cons_cons] at h
            split_ifs at h with hd
            · cases h
              exact ⟨by decide, d :: r, rfl, by simpa using hd, rfl⟩
            · exact hlater hn (fun _ => by simpa using hd) h
        · rw [closing?_cons hn hc] at h
          exact hlater hn (fun h => absurd h hc) h
  · rintro ⟨hi, tail, rfl, htail, rfl⟩
    exact closing?_append hi htail

example : closing? (.of "a]b] c]") = some (.of "a]b", .of "c]") := by decide

theorem opening?_eq_some {t i r : Text} {c : CodePoint} : opening? t = some (c, i, r) ↔ ∃ d, c = mark d ∧ Opens t d i r := by
  constructor
  · intro h
    obtain ⟨d, rfl⟩ := exists_mark (opening?_isMark h)
    unfold opening? at h
    split at h
    · split_ifs at h
      obtain ⟨x, hclose, heq⟩ := Option.map_eq_some_iff.1 h
      cases heq
      obtain ⟨hinner, tail, rfl, htail⟩ := closing?_eq_some.1 hclose
      exact ⟨d, rfl, ⟨tail, by simp [bracket], htail⟩, hinner⟩
    · exact absurd h (by simp)
  · rintro ⟨d, rfl, ⟨tail, rfl, htail, rfl⟩, hi⟩
    have hclose := closing?_append hi htail
    simp [bracket, opening?, isMark_mark, hclose]

/-- The match at the front of a text is the segment there. -/
theorem opens_iff {t i r : Text} {d : Direction} : Opens t d i r ↔
    ∃ w, pattern.first? t = some w ∧ w.group? 1 = some [d.mark] ∧ w.group? 2 = some i ∧ w.rest = r := by
  rw [← exists_first?, opening?_eq_some]
  constructor
  · intro h
    exact ⟨d, rfl, h⟩
  · rintro ⟨d', hmark, h⟩
    cases d <;> cases d' <;> first | exact h | exact absurd hmark (by decide)

/-! ## All segments -/

/-- The matches that are found are the segments, in order. -/
theorem all_eq_scan {t : Text} {xs : List (Direction × Text)} (h : scan t = .ok xs) :
    ((pattern.all t).map fun w => (w.group? 1, w.group? 2)) = xs.map fun x => (some [x.1.mark], some x.2) := by
  fun_induction scan t generalizing xs with
  | case1 t c i r hopen ih =>
    obtain ⟨w, hfirst, hmark, hinner, hrest⟩ := exists_first?.1 hopen
    have htaken : w.taken ≠ [] := fun hnil => by
      have hlength := opening?_length hopen
      rw [(Pattern.of_first? hfirst).1, hnil, hrest] at hlength
      exact absurd hlength (by simp)
    obtain ⟨d, hd, h⟩ := Outcome.bind_eq_ok.1 h
    obtain ⟨ys, hys, h⟩ := Outcome.bind_eq_ok.1 h
    cases h
    obtain ⟨d', rfl⟩ := exists_mark (opening?_isMark hopen)
    rw [ofText_mark] at hd
    cases hd
    rw [Pattern.all_of_some hfirst htaken, List.map_cons, List.map_cons, hrest, ih hys, hmark, hinner]
  | case2 hopen =>
    cases h
    rw [Pattern.all_nil, first?_eq_none.2 hopen]
    rfl
  | case3 c t hopen ih =>
    rw [Pattern.all_of_none (first?_eq_none.2 hopen)]
    exact ih h

/-- Cutting finds nothing but the matches. -/
theorem scan_eq_all {t : Text} {xs : List (Direction × Text)} : scan t = .ok xs ↔
    ((pattern.all t).map fun w => (w.group? 1, w.group? 2)) = xs.map fun x => (some [x.1.mark], some x.2) := by
  refine ⟨all_eq_scan, fun h => ?_⟩
  obtain ⟨ys, hys⟩ := scan_ok t
  have hinjective : Function.Injective fun x : Direction × Text => (some [x.1.mark], some x.2) := by
    rintro ⟨d, i⟩ ⟨d', i'⟩ heq
    cases d <;> cases d' <;> simp_all [mark]
  have heq : ys = xs := List.map_injective_iff.2 hinjective ((all_eq_scan hys).symm.trans h)
  rw [hys, heq]

/-- A match as a whole is what a configuration text looks like. -/
theorem isSequence_iff_whole? {t : Text} : isSequence t = true ↔ ∃ w, pattern.whole? t = some w := by
  have hpattern : pattern = .seq (.group 1 (.alt (.text ['<']) (.text ['>']))) (.seq (.text ['['])
    (.seq (.group 2 (.lazy .any)) (.seq (.text [']']) (.group 3 (.alt (.one .blank) .ending))))) := rfl
  rw [Pattern.exists_whole?, isSequence_iff, hpattern]
  simp only [Pattern.leaves_seq, Pattern.leaves_group, Pattern.leaves_alt, Pattern.leaves_text, Pattern.leaves_lazy,
    Pattern.leaves_one, Pattern.leaves_ending]
  constructor
  · rintro ⟨m, inner, tail, rfl, hm, hline, htail⟩
    have hany : ∀ c ∈ inner, CharClass.any.has c = true := fun c hc => decide_eq_true fun hn => hline (hn ▸ hc)
    refine ⟨'[' :: (inner ++ .char ']' :: tail), (isMark_iff.1 hm).imp (by rintro rfl; rfl) (by rintro rfl; rfl), _, rfl,
      ']' :: tail, ⟨inner, rfl, hany⟩, tail, rfl, ?_⟩
    rcases htail with rfl | ⟨b, rfl, hb⟩
    · exact .inr ⟨rfl, .inl rfl⟩
    · exact .inl ⟨b, rfl, hb⟩
  · rintro ⟨_, hmark, _, rfl, _, ⟨inner, rfl, hany⟩, tail, rfl, htail⟩
    have hline : .char '\n' ∉ inner := fun hn => absurd (hany _ hn) (by decide)
    have htail : tail = [] ∨ ∃ b, tail = [b] ∧ isAsciiBlank b = true := htail.symm.imp And.left id
    rcases hmark with rfl | rfl
    · exact ⟨'<', inner, tail, rfl, rfl, hline, htail⟩
    · exact ⟨'>', inner, tail, rfl, rfl, hline, htail⟩

theorem exists_closing? {inner tail : Text} (hline : .char '\n' ∉ inner) (htail : ∀ c ∈ tail.head?, isAsciiBlank c = true) :
    ∃ x, closing? (inner ++ .char ']' :: tail) = some x := by
  induction inner with
  | nil => exact ⟨_, closing?_append ⟨by simp, List.IsChain.nil⟩ htail⟩
  | cons c inner ih =>
    obtain ⟨hn, hline⟩ := not_or.1 (List.mem_cons.not.1 hline)
    obtain ⟨x, hx⟩ := ih hline
    by_cases hc : c = ']'
    · subst hc
      obtain ⟨d, t, hd⟩ : ∃ d t, inner ++ .char ']' :: tail = d :: t := List.exists_cons_of_ne_nil (by simp)
      rw [List.cons_append, hd, closing?_cons_cons, ← hd, hx]
      split_ifs <;> exact ⟨_, rfl⟩
    · rw [List.cons_append, closing?_cons (Ne.symm hn) hc, hx]
      exact ⟨_, rfl⟩

/-- Every text that is accepted begins with a segment. -/
theorem exists_opens {t : Text} (h : isSequence t = true) : ∃ d i r, Opens t d i r := by
  obtain ⟨m, inner, tail, rfl, hm, hline, htail⟩ := isSequence_iff.1 h
  have hblank : ∀ c ∈ tail.head?, isAsciiBlank c = true := by
    rcases htail with rfl | ⟨b, rfl, hb⟩
    · simp
    · simpa using hb
  obtain ⟨⟨i, r⟩, hclose⟩ := exists_closing? hline hblank
  have hopen : opening? (m :: '[' :: (inner ++ .char ']' :: tail)) = some (m, i, r) := by
    rw [opening?, if_pos hm, hclose]
    rfl
  obtain ⟨d, _, hopens⟩ := opening?_eq_some.1 hopen
  exact ⟨d, i, r, hopens⟩

theorem enclosable_of_mem_scan {t : Text} {xs : List (Direction × Text)} (h : scan t = .ok xs) :
    ∀ x ∈ xs, x.2.Enclosable := by
  fun_induction scan t generalizing xs with
  | case1 t c i r hopen ih =>
    obtain ⟨d, _, hopens⟩ := opening?_eq_some.1 hopen
    obtain ⟨d, _, h⟩ := Outcome.bind_eq_ok.1 h
    obtain ⟨ys, hys, h⟩ := Outcome.bind_eq_ok.1 h
    cases h
    exact List.forall_mem_cons.2 ⟨hopens.inner, ih hys⟩
  | case2 =>
    cases h
    simp
  | case3 c t _ ih => exact ih h

theorem segments_eq_ok {t : Text} {xs : List (Direction × Text)} :
    segments t = .ok xs ↔ isSequence t = true ∧ scan t = .ok xs := by
  unfold segments
  split_ifs with h <;> simp [h]

/-- What is cut out of a text that is accepted. -/
theorem segments_ok {t : Text} {xs : List (Direction × Text)} (h : segments t = .ok xs) :
    (∃ d i r ys, Opens t d i r ∧ xs = (d, i) :: ys) ∧ ∀ x ∈ xs, .char '\n' ∉ x.2 := by
  obtain ⟨hsequence, hscan⟩ := segments_eq_ok.1 h
  refine ⟨?_, fun x hx => (enclosable_of_mem_scan hscan x hx).1⟩
  obtain ⟨d, i, r, hopens⟩ := exists_opens hsequence
  obtain ⟨ys, hys⟩ := scan_ok r
  rw [scan_of_opening? (opening?_eq_some.2 ⟨d, rfl, hopens⟩), ofText_mark, hys] at hscan
  cases hscan
  exact ⟨d, i, r, ys, hopens, rfl⟩

/-- **A configuration text** is refused, and reported with the pattern, exactly if it is no match of the pattern as a
whole.  Else its segments are the matches that are found in it one behind the other: there is at least one, the first
begins with the text, and none has a newline in it.  No match is ever refused for its mark. -/
theorem segments_search (t : Text) :
    ((∃ e, segments t = .error e) ↔ pattern.whole? t = none) ∧
      (∀ e, segments t = .error e → e.text = t ∧ e.expected = pattern.shown) ∧
      (∀ xs, segments t = .ok xs ↔ pattern.whole? t ≠ none ∧
        ((pattern.all t).map fun w => (w.group? 1, w.group? 2)) = xs.map fun x => (some [x.1.mark], some x.2)) ∧
      (∀ s d i r, Opens s d i r ↔
        ∃ w, pattern.first? s = some w ∧ w.group? 1 = some [d.mark] ∧ w.group? 2 = some i ∧ w.rest = r) ∧
      (∀ xs, segments t = .ok xs → (∃ d i r ys, Opens t d i r ∧ xs = (d, i) :: ys) ∧ ∀ x ∈ xs, .char '\n' ∉ x.2) ∧
      ∃ xs, scan t = .ok xs := by
  have hwhole : pattern.whole? t ≠ none ↔ isSequence t = true := by
    rw [isSequence_iff_whole?, Option.ne_none_iff_exists']
  refine ⟨⟨?_, fun h => ?_⟩, fun e he => ?_, fun xs => ?_, fun s d i r => opens_iff, fun xs => segments_ok, scan_ok t⟩
  · rintro ⟨e, he⟩
    by_contra h
    obtain ⟨xs, hxs⟩ := scan_ok t
    rw [segments_eq_ok.2 ⟨hwhole.1 h, hxs⟩] at he
    exact absurd he (by simp)
  · exact ⟨.configuration t, if_neg fun hsequence => hwhole.2 hsequence h⟩
  · rw [segments_error he, shown_pattern]
    exact ⟨rfl, rfl⟩
  · rw [segments_eq_ok, hwhole, scan_eq_all]

end Direction

end RequestRules
