import RequestRules.Proofs.Grammar.Address

/-!
# What is taken out of an address

An address that ends in `}` holds an embedded header fragment, its `Target.Span`: from its first `{` to the next `}`.
Reading takes out more than that.  It looks for the first `}` of the whole address, and keeps only what stands before the
`{`: so a `}` in front of the span makes the address a fault, and what stands behind the span is lost
(`Target.takeFragment_span`).

`Target.read_span` says what is read of every text, and that exactly the span is taken out if and only if neither is there.
-/

namespace RequestRules

namespace Target

/-- The first `{` of an address and the next `}`: what stands before, between and behind them. -/
structure Span (address before inner after : Text) : Prop where
  text : address = before ++ .char '{' :: (inner ++ .char '}' :: after)
  before : .char '{' ∉ before
  inner : .char '}' ∉ inner

/-- What is read if exactly the span is taken out. -/
def spared (t before inner after : Text) (body : Option Text) : Except GrammarError Target :=
  if before ++ after = [] then .error (.emptyAddress t) else .ok ⟨before ++ after, some inner, body⟩

section Fragment

variable {address before inner after : Text}

/-- The last `}` is behind every `{`. -/
theorem exists_span (hlast : address.getLast? = some (.char '}')) (hopen : .char '{' ∈ address) :
    ∃ before inner after, Span address before inner after := by
  obtain ⟨before, rest, rfl, hbefore⟩ := List.eq_append_cons_of_mem hopen
  have hclose : .char '}' ∈ rest := by
    rw [List.getLast?_append_cons] at hlast
    rcases List.mem_cons.1 (List.mem_of_getLast? hlast) with h | h
    · exact absurd h (by decide)
    · exact h
  obtain ⟨inner, after, rfl, hinner⟩ := List.eq_append_cons_of_mem hclose
  exact ⟨before, inner, after, rfl, hbefore, hinner⟩

/-- An address without a `{` in front of its first `}` holds no fragment. -/
theorem takeFragment_unopened {l r : Text} (hlast : (l ++ .char '}' :: r).getLast? = some (.char '}'))
    (hclose : .char '}' ∉ l) (hopen : .char '{' ∉ l) : takeFragment (l ++ .char '}' :: r) = .error (.braces (l ++ .char '}' :: r)) := by
  rw [takeFragment, if_pos hlast, Text.cut?_append hclose]
  simp only [Text.cut?_eq_none hopen]

/-- **What is taken out** of an address with a span: everything from the `{` on, if there is no `}` before it. -/
theorem takeFragment_span (hlast : address.getLast? = some (.char '}')) (h : Span address before inner after) :
    takeFragment address = if .char '}' ∈ before then .error (.braces address) else .ok (before, some inner) := by
  obtain ⟨rfl, hbefore, hinner⟩ := h
  split_ifs with hclose
  · obtain ⟨l, r, rfl, hl⟩ := List.eq_append_cons_of_mem hclose
    rw [List.append_assoc, List.cons_append] at hlast ⊢
    exact takeFragment_unopened hlast hl fun hopen => hbefore (List.mem_append_left _ hopen)
  · have hcut : Text.cut? '}' (before ++ .char '{' :: (inner ++ .char '}' :: after)) =
        some (before ++ .char '{' :: inner, after) := by
      have hmem : .char '}' ∉ before ++ .char '{' :: inner := by simp [hclose, hinner]
      simpa using Text.cut?_append (r := after) hmem
    rw [takeFragment, if_pos hlast, hcut]
    simp only [Text.cut?_append hbefore]

theorem takeFragment_noOpening (hlast : address.getLast? = some (.char '}')) (hopen : .char '{' ∉ address) :
    takeFragment address = .error (.braces address) := by
  obtain ⟨l, r, rfl, hl⟩ := List.eq_append_cons_of_mem (List.mem_of_getLast? hlast)
  exact takeFragment_unopened hlast hl fun h => hopen (List.mem_append_left _ h)

theorem read_of_takeFragment_error {t : Text} {e : GrammarError}
    (h : takeFragment (Located.read t).address.render = .error e) : read t = .error e := by
  simp only [read, h]
  rfl

theorem read_of_takeFragment {t url : Text} {fragment : Option Text}
    (h : takeFragment (Located.read t).address.render = .ok (url, fragment)) :
    read t = if url = [] then .error (.emptyAddress t) else .ok ⟨url, fragment, (Located.read t).body⟩ := by
  simp only [read, h]
  cases url <;> rfl

end Fragment

/-- **What is read of an address** with a body behind it.  One that does not end in `}` is the URL, if there is any of it.
One that does is a fault without a `{`.  With one it has a span, and is a fault if a `}` stands before that; else the URL
is what stands before the span, and has to be there.  So exactly the span is taken out if and only if no `}` stands before
it, and nothing behind it. -/
theorem read_span (t : Text) :
    ((Located.read t).address.render.getLast? ≠ some (.char '}') → read t =
      if (Located.read t).address.render = [] then .error (.emptyAddress t)
      else .ok ⟨(Located.read t).address.render, none, (Located.read t).body⟩) ∧
    ((Located.read t).address.render.getLast? = some (.char '}') →
      (.char '{' ∉ (Located.read t).address.render → read t = .error (.braces (Located.read t).address.render)) ∧
      (.char '{' ∈ (Located.read t).address.render →
        ∃ before inner after, Span (Located.read t).address.render before inner after) ∧
      ∀ before inner after, Span (Located.read t).address.render before inner after →
        (read t =
          if .char '}' ∈ before then .error (.braces (Located.read t).address.render)
          else if before = [] then .error (.emptyAddress t)
          else .ok ⟨before, some inner, (Located.read t).body⟩) ∧
        (read t = spared t before inner after (Located.read t).body ↔ .char '}' ∉ before ∧ after = [])) := by
  refine ⟨fun hlast => ?_, fun hlast => ⟨fun hopen => ?_, exists_span hlast, fun before inner after hspan => ?_⟩⟩
  · exact read_of_takeFragment (takeFragment_plain hlast)
  · exact read_of_takeFragment_error (takeFragment_noOpening hlast hopen)
  · have htake := takeFragment_span hlast hspan
    by_cases hclose : .char '}' ∈ before
    · -- with the span taken out the `}` in front of it would be left
      rw [if_pos hclose] at htake
      have hne : before ++ after ≠ [] := fun h => by simp [(List.append_eq_nil_iff.1 h).1] at hclose
      rw [read_of_takeFragment_error htake, if_pos hclose, spared, if_neg hne]
      simp [hclose]
    · rw [if_neg hclose] at htake
      rw [read_of_takeFragment htake, if_neg hclose, spared]
      refine ⟨rfl, ?_⟩
      by_cases hbefore : before = []
      · by_cases hafter : after = [] <;> simp [hbefore, hafter]
      · simp [hbefore, hclose]

/-- **What stands behind the fragment is lost**: of an address with two brace groups the first is the fragment, and with the
second the path between them is gone. -/
theorem read_two_groups :
    let t := Text.of "http://x.org/\x7ba=1\x7d/b\x7bc=2\x7d"
    let before := Text.of "http://x.org/"
    let inner := Text.of "a=1"
    let after := Text.of "/b\x7bc=2\x7d"
    Span t before inner after ∧ (Located.read t).address.render = t ∧ read t = .ok ⟨before, some inner, none⟩ ∧
      read t ≠ spared t before inner after none ∧
      spared t before inner after none = .ok ⟨.of "http://x.org//b\x7bc=2\x7d", some inner, none⟩ := by
  intro t before inner after
  exact ⟨⟨rfl, by decide, by decide⟩, by decide, by decide, by decide, by decide⟩

end Target

end RequestRules
