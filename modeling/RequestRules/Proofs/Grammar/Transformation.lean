import RequestRules.Grammar.Transformation
import RequestRules.Proofs.Text

/-!
# Transformations as they are written and kept

A text on one line that ends in `)` writes a call, cut at its last `(` (`Call.Writes`), and no text writes two.  The texts
that are kept as a transformation are `default` and the calls (`Payload.Transforms`); every other one is a body.

A call is kept as `name=parameter`.  As a name may hold a `=`, two calls can be kept as the same text: exactly if the name
of one goes on behind the name of the other with a `=` (`Call.Shifted`, `Call.stored_eq_iff`).
-/

namespace RequestRules

namespace Call

variable {c d : Call} {t u : Text}

/-- The text, which is on one line, is written as the call; behind the `(` of the call there is no other. -/
structure Writes (c : Call) (t : Text) : Prop where
  text : t = c.name ++ .char '(' :: (c.parameter ++ [.char ')'])
  last : .char '(' ∉ c.parameter
  line : .char '\n' ∉ t

/-- **A call is read** exactly from the texts that are written as it. -/
theorem parse?_eq_some_iff : parse? t = some c ↔ c.Writes t := by
  constructor
  · intro h
    unfold parse? at h
    split_ifs at h with hline hlast
    obtain ⟨⟨name, parameter⟩, hcut, rfl⟩ := Option.map_eq_some_iff.1 h
    obtain ⟨hfront, hparameter⟩ := Text.cutLast?_eq_some hcut
    obtain ⟨s, rfl⟩ := List.getLast?_eq_some_iff.1 hlast
    rw [List.dropLast_concat] at hfront
    exact ⟨by simp [hfront], hparameter, by simpa using hline⟩
  · rintro ⟨rfl, hlast, hline⟩
    have hjoin : c.name ++ .char '(' :: (c.parameter ++ [.char ')']) =
        (c.name ++ .char '(' :: c.parameter) ++ [.char ')'] := by simp
    rw [hjoin] at hline ⊢
    unfold parse?
    rw [if_neg (by simpa using hline), if_pos List.getLast?_concat, List.dropLast_concat, Text.cutLast?_append hlast]
    rfl

theorem parse?_eq_none_iff : parse? t = none ↔ ∀ c : Call, ¬ c.Writes t := by
  rw [Option.eq_none_iff_forall_ne_some]
  exact forall_congr' fun c => not_congr parse?_eq_some_iff

/-- No text writes two calls. -/
theorem Writes.unique (hc : c.Writes t) (hd : d.Writes t) : c = d :=
  Option.some.inj ((parse?_eq_some_iff.2 hc).symm.trans (parse?_eq_some_iff.2 hd))

/-! ## What is kept of a call -/

/-- The name of `d` is that of `c`, a `=` and more, which is what the parameter of `c` has in front of that of `d`. -/
def Shifted (c d : Call) : Prop := ∃ t, d.name = c.name ++ .char '=' :: t ∧ c.parameter = t ++ .char '=' :: d.parameter

theorem Shifted.stored_eq (h : c.Shifted d) : c.stored = d.stored := by
  obtain ⟨t, hname, hparameter⟩ := h
  simp [stored, hname, hparameter]

/-- Of two names that are kept in front of the same text, the longer one goes on with a `=`. -/
theorem eq_or_shifted {s : Text} (hname : d.name = c.name ++ s)
    (hrest : .char '=' :: c.parameter = s ++ .char '=' :: d.parameter) : c = d ∨ c.Shifted d := by
  cases s with
  | nil =>
    left
    obtain ⟨_, hparameter⟩ := List.cons.inj hrest
    rw [List.append_nil] at hname
    cases c
    cases d
    simp_all
  | cons a s =>
    obtain ⟨rfl, hparameter⟩ := List.cons.inj hrest
    exact .inr ⟨s, hname, hparameter⟩

/-- **Which calls are kept as the same text.** -/
theorem stored_eq_iff : c.stored = d.stored ↔ c = d ∨ c.Shifted d ∨ d.Shifted c := by
  constructor
  · intro h
    rcases List.append_eq_append_iff.1 h with ⟨s, hname, hrest⟩ | ⟨s, hname, hrest⟩
    · exact (eq_or_shifted hname hrest).imp_right .inl
    · exact (eq_or_shifted hname hrest).imp Eq.symm .inr
  · rintro (rfl | h | h)
    · rfl
    · exact h.stored_eq
    · exact h.stored_eq.symm

/-- **What is kept can be cut again** at its first `=` exactly if the name has none. -/
theorem cut?_stored : Text.cut? '=' c.stored = some (c.name, c.parameter) ↔ .char '=' ∉ c.name :=
  ⟨fun h => (Text.cut?_eq_some h).2, Text.cut?_append⟩

/-- A longer name has a `=` more. -/
theorem Shifted.count_lt (h : c.Shifted d) : c.name.count (.char '=') < d.name.count (.char '=') := by
  obtain ⟨t, hname, _⟩ := h
  rw [hname, List.count_append, List.count_cons_self]
  omega

end Call

namespace Payload

/-! ## Transformations and bodies -/

/-- The text is written as a transformation, and this is what is kept of it. -/
inductive Transforms : Text → Text → Prop
  | byDefault : Transforms Payload.default Payload.default
  | call {c : Call} {t : Text} (h : c.Writes t) : Transforms t c.stored

variable {t s : Text}

theorem classify_of_transforms (h : Transforms t s) : classify t = .transformation s := by
  cases h with
  | byDefault => exact if_pos rfl
  | @call c t h =>
    have hcall : Call.parse? t = some c := Call.parse?_eq_some_iff.2 h
    have hne : t ≠ Payload.default := by
      rintro rfl
      exact absurd hcall (by simp [show Call.parse? Payload.default = none by decide])
    rw [classify, if_neg hne, hcall]

/-- A text that is written as no transformation is a body, as it stands. -/
theorem classify_of_none (h : ∀ s, ¬ Transforms t s) : classify t = .body t := by
  have hne : t ≠ Payload.default := by
    rintro rfl
    exact h _ .byDefault
  have hcall : Call.parse? t = none := Call.parse?_eq_none_iff.2 fun c hc => h _ (.call hc)
  rw [classify, if_neg hne, hcall]

theorem classify_cases (t : Text) :
    (∃ s, Transforms t s ∧ classify t = .transformation s) ∨ (∀ s, ¬ Transforms t s) ∧ classify t = .body t := by
  by_cases h : ∃ s, Transforms t s
  · obtain ⟨s, hs⟩ := h
    exact .inl ⟨s, hs, classify_of_transforms hs⟩
  · have hnone := not_exists.1 h
    exact .inr ⟨hnone, classify_of_none hnone⟩

/-- **A text is kept as a transformation** exactly if it is written as one. -/
theorem transformation?_eq_some_iff : (classify t).transformation? = some s ↔ Transforms t s := by
  constructor
  · intro h
    rcases classify_cases t with ⟨s', hs', hclass⟩ | ⟨_, hclass⟩
    · rw [hclass] at h
      cases h
      exact hs'
    · rw [hclass] at h
      exact absurd h (by simp [transformation?])
  · intro h
    rw [classify_of_transforms h]
    rfl

/-! ## What tells calls apart -/

/-- **What is kept of a call** tells it apart from every call but those whose names go on behind its own name with a `=`, or
the other way round, and so from all calls whose names have as many `=`s.  Cut at its first `=` it gives the name and the
parameter exactly if the name has no `=`. -/
theorem classify_tells_calls {t u : Text} {c d : Call} (hc : Call.parse? t = some c) (hd : Call.parse? u = some d) :
    (∃ s, (classify t).transformation? = some s ∧ (Text.cut? '=' s = some (c.name, c.parameter) ↔ .char '=' ∉ c.name)) ∧
      ((classify t).transformation? = (classify u).transformation? ↔ t = u ∨ c.Shifted d ∨ d.Shifted c) ∧
      (c.name.count (.char '=') = d.name.count (.char '=') →
        ((classify t).transformation? = (classify u).transformation? ↔ t = u)) := by
  have hwc := Call.parse?_eq_some_iff.1 hc
  have hwd := Call.parse?_eq_some_iff.1 hd
  have hkept : (classify t).transformation? = some c.stored := transformation?_eq_some_iff.2 (.call hwc)
  have hkept' : (classify u).transformation? = some d.stored := transformation?_eq_some_iff.2 (.call hwd)
  have hsame : c = d ↔ t = u := by
    constructor
    · rintro rfl
      rw [hwc.text, hwd.text]
    · rintro rfl
      exact hwc.unique hwd
  have hiff : (classify t).transformation? = (classify u).transformation? ↔ t = u ∨ c.Shifted d ∨ d.Shifted c := by
    rw [hkept, hkept', Option.some.injEq, Call.stored_eq_iff, hsame]
  refine ⟨⟨c.stored, hkept, Call.cut?_stored⟩, hiff, fun hcount => hiff.trans ?_⟩
  have hc : ¬ c.Shifted d := fun h => absurd hcount (Nat.ne_of_lt h.count_lt)
  have hd : ¬ d.Shifted c := fun h => absurd hcount.symm (Nat.ne_of_lt h.count_lt)
  simp [hc, hd]

/-- A pattern with parentheses of its own, and a map with a `=` in its parameter. -/
theorem classify_tells_calls_map :
    let t := Text.of "REGEX(.*?<b>(.*))"
    let u := Text.of "MAP(en=1)"
    let c : Call := ⟨.of "REGEX(.*?<b>", .of ".*)"⟩
    let d : Call := ⟨.of "MAP", .of "en=1"⟩
    Call.parse? t = some c ∧ Call.parse? u = some d ∧ c.name.count (.char '=') = d.name.count (.char '=') ∧
      (∃ s, (classify u).transformation? = some s ∧ Text.cut? '=' s = some (d.name, d.parameter)) ∧
      (classify t).transformation? ≠ (classify u).transformation? := by
  intro t u c d
  have hc : Call.parse? t = some c := by decide
  have hd : Call.parse? u = some d := by decide
  have hcount : c.name.count (.char '=') = d.name.count (.char '=') := by decide
  obtain ⟨⟨s, hs, hcut⟩, _⟩ := classify_tells_calls hd hc
  obtain ⟨_, _, htold⟩ := classify_tells_calls hc hd
  exact ⟨hc, hd, hcount, ⟨s, hs, hcut.2 (by decide)⟩, fun h => absurd ((htold hcount).1 h) (by decide)⟩

/-- **Two calls are kept as one text**, and the one with a `=` in its name is cut at another place. -/
theorem kept_alike :
    let t := Text.of "a=b(c)"
    let u := Text.of "a(b=c)"
    Call.parse? t = some ⟨.of "a=b", .of "c"⟩ ∧ Call.parse? u = some ⟨.of "a", .of "b=c"⟩ ∧ t ≠ u ∧
      classify t = .transformation (.of "a=b=c") ∧ classify u = .transformation (.of "a=b=c") ∧
      Text.cut? '=' (.of "a=b=c") = some (.of "a", .of "b=c") := by
  decide

end Payload

end RequestRules
