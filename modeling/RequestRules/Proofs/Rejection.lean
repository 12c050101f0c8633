import RequestRules.Descriptor
import RequestRules.Proofs.Grammar.RoundTrip
import RequestRules.Proofs.Grammar.Shape
import RequestRules.Proofs.Outcome

/-!
# Why a configuration text gives no descriptor

A configuration text gives a descriptor, is rejected for its grammar or for a command, or has an interval of too many
digits before its first other fault (`Descriptor.parse_outcomes`).  No other error of the readers is ever reached: cutting
a text into brackets never fails (`Direction.scan_ok`), so that no mark is ever a wrong one, and the rules that are read
have not both a transformation and a body.
-/

namespace RequestRules

/-! ## Brackets -/

namespace Direction

theorem ofText_isMark {c : CodePoint} (h : isMark c = true) : ∃ d, ofText [c] = .ok d := by
  obtain ⟨d, rfl⟩ := exists_mark h
  exact ⟨d, ofText_mark d⟩

theorem opening?_isMark {t i r : Text} {c : CodePoint} (h : opening? t = some (c, i, r)) : isMark c = true := by
  unfold opening? at h
  split at h
  · split at h
    · next hm =>
      obtain ⟨x, _, hx⟩ := Option.map_eq_some_iff.1 h
      cases hx
      exact hm
    · exact absurd h (by simp)
  · exact absurd h (by simp)

/-- **Cutting never fails.**  Only a mark opens a bracket. -/
theorem scan_ok (t : Text) : ∃ xs, scan t = .ok xs := by
  fun_induction scan t with
  | case1 t c i r h ih =>
    obtain ⟨d, hd⟩ := ofText_isMark (opening?_isMark h)
    obtain ⟨xs, hxs⟩ := ih
    exact ⟨(d, i) :: xs, by rw [hd, hxs]; rfl⟩
  | case2 => exact ⟨[], rfl⟩
  | case3 c t h ih => exact ih

theorem segments_error {t : Text} {e : GrammarError} (h : segments t = .error e) : e = .configuration t := by
  unfold segments at h
  split at h
  · obtain ⟨xs, hxs⟩ := scan_ok t
    rw [hxs] at h
    exact absurd h (by simp)
  · exact (Except.error.inj h).symm

end Direction

/-! ## Rules for sending -/

namespace Target

theorem takeFragment_error {t : Text} {e : GrammarError} (h : takeFragment t = .error e) : e = .braces t := by
  unfold takeFragment at h
  split at h
  · split at h
    · exact (Except.error.inj h).symm
    · split at h
      · exact (Except.error.inj h).symm
      · exact absurd h (by simp)
  · exact absurd h (by simp)

theorem read_error {t : Text} {e : GrammarError} (h : read t = .error e) :
    e = .braces (Located.read t).address.render ∨ e = .emptyAddress t := by
  rcases Outcome.bind_eq_error.1 h with h | ⟨⟨url, fragment⟩, _, h⟩
  · exact .inl (takeFragment_error h)
  · right
    change (if url.isEmpty then Except.error (GrammarError.emptyAddress t) else _) = _ at h
    split at h
    · exact (Except.error.inj h).symm
    · exact absurd h (by simp)

end Target

namespace Outbound

theorem read_error {t : Text} {e : GrammarError} (h : read t = .error e) (mark : Text) : e ≠ .direction mark := by
  unfold read at h
  split at h
  · rw [← Except.error.inj h]
    simp
  · rcases Outcome.bind_eq_error.1 h with h | ⟨target, _, h⟩
    · rcases Target.read_error h with rfl | rfl <;> simp
    · exact absurd h (by simp [pure, Except.pure])

end Outbound

/-! ## Rules for polling -/

namespace Inbound

/-- The text is a rule for polling, but for the `n` digits of its interval, which are too many. -/
def IsLong (t : Text) (n : Nat) : Prop :=
  .char '\n' ∉ t ∧ ∃ p, parts? t = some p ∧ p.digits.length = n ∧ Numeral.limit < n

theorem read_longInterval {t : Text} {n : Nat} : read t = .error (.longInterval n) ↔ IsLong t n := by
  unfold read IsLong
  by_cases hline : .char '\n' ∈ t
  · simp [hline]
  · cases hp : parts? t with
    | none => simp [hline]
    | some p =>
      by_cases hlong : Numeral.limit < p.digits.length
      · have hne : p.digits ≠ [] := by
          intro he
          rw [he] at hlong
          exact absurd hlong (by decide)
        simp only [List.contains_iff_mem, hline, if_false, List.isEmpty_iff, hne, hlong, if_true]
        constructor
        · intro h
          cases h
          exact ⟨not_false, p, rfl, rfl, hlong⟩
        · rintro ⟨_, q, hq, rfl, _⟩
          cases hq
          rfl
      · simp only [List.contains_iff_mem, hline, if_false, hlong]
        constructor
        · intro h
          split at h <;> exact absurd h (by simp)
        · rintro ⟨_, q, hq, rfl, hq'⟩
          cases hq
          exact absurd hq' hlong

/-- Behind a plain URL an interval of too many digits is one. -/
theorem isLong_append {u digits t : Text} (hb : .char '{' ∉ u) (hu : u.NoRun CodePoint.isDigit)
    (hd : ∀ c ∈ digits, c.isDigit = true) (hlong : Numeral.limit < digits.length)
    (hline : .char '\n' ∉ u ++ .char ':' :: (digits ++ .char ':' :: t)) :
    IsLong (u ++ .char ':' :: (digits ++ .char ':' :: t)) digits.length := by
  have hne : digits ≠ [] := by
    rintro rfl
    exact absurd hlong (by decide)
  refine ⟨hline, ⟨u, none, digits, t⟩, ?_, rfl, hlong⟩
  rw [parts?_append hb hu]
  simp [parts?, tail?_digits hne hd t]

theorem read_grammar {t : Text} {e : GrammarError} (h : read t = .error (.grammar e)) : e = .inbound t ∨ e = .interval t := by
  unfold read at h
  split at h
  · exact .inl (by cases h; rfl)
  · split at h
    · exact .inr (by cases h; rfl)
    · split at h <;> exact absurd h (by simp)

end Inbound

/-! ## Whole texts -/

namespace Segment

/-- The first segment of the text that is not read is one for polling, with an interval of `n` digits. -/
def FirstFaultIsLong (t : Text) (n : Nat) : Prop :=
  ∃ before inner after, Direction.segments t = .ok (before ++ (.inbound, inner) :: after) ∧
    (∀ x ∈ before, ∃ s, read x = .ok s) ∧ Inbound.IsLong inner n

theorem read_longInterval {x : Direction × Text} {n : Nat} :
    read x = .error (.longInterval n) ↔ x.1 = .inbound ∧ Inbound.IsLong x.2 n := by
  obtain ⟨d, t⟩ := x
  cases d with
  | inbound =>
    have hread : read (.inbound, t) = (Inbound.read t).map inbound := rfl
    rw [hread, Outcome.map_eq_error, Inbound.read_longInterval]
    simp
  | outbound =>
    have hread : read (.outbound, t) = ((Outbound.read t).mapError SegmentError.grammar).map outbound := rfl
    rw [hread, Outcome.map_eq_error, Outcome.mapError_eq_error]
    simp

theorem read_grammar {x : Direction × Text} {e : GrammarError} (h : read x = .error (.grammar e)) (mark : Text) :
    e ≠ .direction mark := by
  obtain ⟨d, t⟩ := x
  cases d with
  | inbound => rcases Inbound.read_grammar (Outcome.map_eq_error.1 h) with rfl | rfl <;> simp
  | outbound =>
    obtain ⟨e', he, hee⟩ := Outcome.mapError_eq_error.1 (Outcome.map_eq_error.1 h)
    cases hee
    exact Outbound.read_error he mark

theorem readAll_longInterval {t : Text} {n : Nat} : readAll t = .error (.longInterval n) ↔ FirstFaultIsLong t n := by
  unfold readAll FirstFaultIsLong
  rw [Outcome.bind_eq_error, Outcome.mapError_eq_error]
  constructor
  · rintro (⟨e, _, he⟩ | ⟨xs, hxs, h⟩)
    · exact absurd he (by simp)
    · obtain ⟨before, ⟨d, inner⟩, after, rfl, hok, hread⟩ := Outcome.mapM_eq_error.1 h
      obtain ⟨rfl, hlong⟩ := read_longInterval.1 hread
      exact ⟨before, inner, after, Outcome.mapError_eq_ok.1 hxs, hok, hlong⟩
  · rintro ⟨before, inner, after, hxs, hok, hlong⟩
    refine .inr ⟨_, Outcome.mapError_eq_ok.2 hxs, Outcome.mapM_eq_error.2 ?_⟩
    exact ⟨before, _, after, rfl, hok, read_longInterval.2 ⟨rfl, hlong⟩⟩

theorem readAll_grammar {t : Text} {e : GrammarError} (h : readAll t = .error (.grammar e)) (mark : Text) :
    e ≠ .direction mark := by
  rcases Outcome.bind_eq_error.1 h with h | ⟨xs, _, h⟩
  · obtain ⟨e', he, hee⟩ := Outcome.mapError_eq_error.1 h
    cases hee
    rw [Direction.segments_error he]
    simp
  · obtain ⟨_, x, _, _, _, hx⟩ := Outcome.mapM_eq_error.1 h
    exact read_grammar hx mark

end Segment

/-- A request that has not both a transformation and a body can be made. -/
theorem Request.check?_of_notBoth {r : Request} (h : r.transformation = none ∨ r.body = none) : r.check? = some r := by
  unfold check?
  rcases h with h | h <;> simp [h]

namespace Descriptor

theorem entry_error {commands : List ValueKind} {s : Segment} {e : DescriptorError}
    (hs : ∀ o, s = .outbound o → o.transformation = none ∨ o.body = none) (h : entry commands s = .error e) :
    ∃ c, e = .rejected (.command c) := by
  cases s with
  | inbound s =>
    have hentry : entry commands (.inbound s) = filed .inbound (Request.ofInbound s).check? := rfl
    rw [hentry, Request.check?_of_notBoth (.inr rfl)] at h
    exact absurd h (by simp [filed])
  | outbound s =>
    rcases Outcome.bind_eq_error.1 h with h | ⟨k, _, h⟩
    · obtain ⟨c, _, hc⟩ := Outcome.mapError_eq_error.1 h
      exact ⟨c, hc.symm⟩
    · rw [Request.ofOutbound?, Request.check?_of_notBoth (hs s rfl)] at h
      exact absurd h (by simp [filed])

section Parse

variable {item : Item} {t : Text}

/-- Rules that are read are filed, unless a command is none. -/
theorem mapM_entry_error {ss : List Segment} (hss : Segment.readAll t = .ok ss) {commands : List ValueKind}
    {e : DescriptorError} (h : ss.mapM (entry commands) = .error e) : ∃ c, e = .rejected (.command c) := by
  obtain ⟨before, s, after, rfl, _, hs⟩ := Outcome.mapM_eq_error.1 h
  refine entry_error ?_ hs
  rintro o rfl
  have hshape : Segment.Shapely (.outbound o) := Segment.shapely_of_mem_readAll hss (by simp)
  exact hshape.notBoth

/-- The outcomes that are no descriptor, by the reader that they come from. -/
theorem parse_error {e : DescriptorError} (h : parse item t = .error e) :
    (∃ e', Segment.readAll t = .error e' ∧ ofSegmentError e' = e) ∨ ∃ c, e = .rejected (.command c) := by
  rcases Outcome.bind_eq_error.1 h with h | ⟨ss, hss, h⟩
  · exact .inl (Outcome.mapError_eq_error.1 h)
  · rcases Outcome.bind_eq_error.1 h with h | ⟨es, _, h⟩
    · exact .inr (mapM_entry_error (Outcome.mapError_eq_ok.1 hss) h)
    · exact absurd h (by simp [pure, Except.pure])

theorem parse_longInterval {n : Nat} :
    parse item t = .error (.longInterval n) ↔ Segment.FirstFaultIsLong t n := by
  rw [← Segment.readAll_longInterval]
  constructor
  · intro hparse
    rcases parse_error hparse with ⟨e, he, hee⟩ | ⟨c, hc⟩
    · cases e with
      | grammar g => exact absurd hee (by simp [ofSegmentError])
      | longInterval m =>
        cases hee
        exact he
    · exact absurd hc (by simp)
  · intro h
    exact Outcome.bind_eq_error.2 (.inl (Outcome.mapError_eq_error.2 ⟨_, h, rfl⟩))

end Parse

/-- **Every outcome of a configuration text**: a descriptor, a rejection, or an interval of too many digits, which is
reported exactly if it is the first fault. -/
theorem parse_outcomes (item : Item) (t : Text) :
    ((∃ d, parse item t = .ok d) ∨
      (∃ r, parse item t = .error (.rejected r) ∧ ∀ mark, r ≠ .grammar (.direction mark)) ∨
      ∃ n, parse item t = .error (.longInterval n)) ∧
    ∀ n, parse item t = .error (.longInterval n) ↔ Segment.FirstFaultIsLong t n := by
  refine ⟨?_, fun n => parse_longInterval⟩
  cases hparse : parse item t with
  | ok d => exact .inl ⟨d, rfl⟩
  | error e =>
    right
    rcases parse_error hparse with ⟨e', he, rfl⟩ | ⟨c, rfl⟩
    · cases e' with
      | grammar g => exact .inl ⟨.grammar g, rfl, fun mark hm => Segment.readAll_grammar he mark (by simpa using hm)⟩
      | longInterval n => exact .inr ⟨n, rfl⟩
    · exact .inl ⟨.command c, rfl, by simp⟩

/-- A power of ten of too many digits is a fault wherever it is the interval. -/
theorem parse_power (item : Item) {n : Nat} (hn : Numeral.limit ≤ n) :
    parse item (Text.of "<[u:1" ++ List.replicate n (.char '0') ++ .of ":t]") = .error (.longInterval (n + 1)) := by
  have hdigits : ∀ c ∈ CodePoint.char '1' :: List.replicate n (.char '0'), c.isDigit = true := by
    intro c hc
    rcases List.mem_cons.1 hc with rfl | hc
    · decide
    · rw [List.eq_of_mem_replicate hc]
      decide
  let rule : Text := [.char 'u'] ++ .char ':' :: (.char '1' :: List.replicate n (.char '0') ++ .char ':' :: [.char 't'])
  have hlength : (CodePoint.char '1' :: List.replicate n (.char '0')).length = n + 1 := by simp
  have hmem : ∀ c : CodePoint, c = '\n' ∨ c = ']' → c ∉ rule := by
    rintro c (rfl | rfl) <;> simp [rule, List.mem_replicate]
  have hlong := Inbound.isLong_append (u := [.char 'u']) (t := [.char 't']) (by decide) (by decide) hdigits (by omega)
    (hmem '\n' (.inl rfl))
  rw [hlength] at hlong
  have hpair : Text.NoPair (· == .char ']') isAsciiBlank rule := by
    rw [← List.append_nil rule]
    refine Text.NoPair.append_left ?_ List.IsChain.nil
    intro c hc
    rw [beq_eq_false_iff_ne]
    rintro rfl
    exact hmem ']' (.inr rfl) hc
  have hcut := @Direction.segments_join [(.inbound, rule)] (by simp) (by
    intro x hx
    rw [List.mem_singleton.1 hx]
    exact ⟨hmem '\n' (.inl rfl), hpair⟩)
  have htext : Text.join [' '] ([(Direction.inbound, rule)].map Direction.bracket) =
      Text.of "<[u:1" ++ List.replicate n (.char '0') ++ .of ":t]" := by
    simp [rule, Text.join, Direction.bracket, Direction.mark, Text.of]
  rw [htext] at hcut
  exact parse_longInterval.2 ⟨[], _, [], hcut, by simp, hlong⟩

/-- The shortest such interval. -/
theorem parse_power_longInterval :
    parse ⟨.switch, .of "A", .of "A"⟩ (Text.of "<[u:1" ++ List.replicate 4300 (.char '0') ++ .of ":t]") =
      .error (.longInterval 4301) := parse_power _ (Nat.le_refl 4300)

end Descriptor

end RequestRules
