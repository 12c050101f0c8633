import RequestRules.Proofs.Calendar.Moment
import RequestRules.Proofs.Number.Decimal
import RequestRules.Proofs.Sameness
import RequestRules.Value.Reader

/-!
# Values come back

`Value.Valid` are the values that can be read (`Value.valid_iff`).  Many texts denote one value, but what is written of a
value is one text, and it is read as that very value (`Value.read_render`): exponents, signs of zero and distances from UTC
come back, not only what they denote.
-/

namespace RequestRules

theorem Choice.find?_word (c : Choice) (first : Bool) : c.find? (c.word first) = some first := by
  cases c <;> cases first <;> decide

namespace Value

def Valid : Value → Prop
  | word .. | text _ => True
  | decimal d => d.inRange = true
  | percent d => d.inRange = true ∧ d.isNonnegative = true ∧ d.isAtMostHundred = true
  | dateTime m => m.Valid
  | color h s b => h ≤ 360 ∧ s ≤ 100 ∧ b ≤ 100

/-! ## What is read is valid, and of its kind -/

theorem of_makeColor {h s b : Int} {v : Value} (hv : makeColor h s b = .ok v) : v.kind = .color ∧ v.Valid := by
  unfold makeColor at hv
  split_ifs at hv with hh hsb
  cases hv
  refine ⟨rfl, ?_⟩
  show h.toNat ≤ 360 ∧ s.toNat ≤ 100 ∧ b.toNat ≤ 100
  omega

theorem of_readColor {t : Text} {v : Value} (hv : readColor t = .ok v) : v.kind = .color ∧ v.Valid := by
  unfold readColor at hv
  split at hv
  · obtain ⟨h, _, hv⟩ := Outcome.bind_eq_ok.1 hv
    obtain ⟨s, _, hv⟩ := Outcome.bind_eq_ok.1 hv
    obtain ⟨b, _, hv⟩ := Outcome.bind_eq_ok.1 hv
    exact of_makeColor hv
  · exact absurd hv (by simp)

theorem kind_read {k : ValueKind} {t : Text} {v : Value} (hv : read k t = .ok v) : v.kind = k := by
  cases k with
  | choice c =>
    unfold read at hv
    cases hfind : c.find? t with
    | none =>
      simp only [hfind] at hv
      exact absurd hv (by simp)
    | some first =>
      simp only [hfind] at hv
      cases hv
      rfl
  | text =>
    cases hv
    rfl
  | color => exact (of_readColor hv).1
  | decimal | percent | dateTime =>
    obtain ⟨_, _, rfl⟩ := Outcome.map_eq_ok.1 hv
    rfl

theorem read_of_readAny? {ks : List ValueKind} {t : Text} {v : Value} (h : readAny? ks t = some v) :
    v.kind ∈ ks ∧ read v.kind t = .ok v := by
  obtain ⟨k, hk, hread⟩ := List.exists_of_findSome?_eq_some h
  have hok : read k t = .ok v := by
    cases hr : read k t with
    | ok w =>
      rw [hr] at hread
      rw [Option.some.inj hread]
    | error e =>
      rw [hr] at hread
      exact absurd hread (by simp [Except.toOption])
  rw [kind_read hok]
  exact ⟨hk, hok⟩

section Reading

variable {t : Text} {d : Decimal} {v : Value}

theorem readDecimal_eq_ok : readDecimal t = .ok d ↔ t = t.trim ∧ Decimal.read t = .number d := by
  unfold readDecimal
  split_ifs with h
  · exact iff_of_false (by simp) fun hd => h hd.1
  · rw [and_iff_right (not_not.1 h)]
    cases Decimal.read t <;> simp

theorem readPercent_eq_ok :
    readPercent t = .ok d ↔ readDecimal t = .ok d ∧ d.isNonnegative = true ∧ d.isAtMostHundred = true := by
  unfold readPercent
  rw [Outcome.bind_eq_ok]
  constructor
  · rintro ⟨d', hd, h⟩
    split_ifs at h with hrange
    cases h
    exact ⟨hd, hrange⟩
  · rintro ⟨hd, hrange⟩
    exact ⟨d, hd, if_pos hrange⟩

theorem valid_of_read {k : ValueKind} (h : read k t = .ok v) : v.Valid := by
  cases k with
  | choice c =>
    unfold read at h
    dsimp only at h
    split at h
    · cases h
      trivial
    · exact absurd h (by simp)
  | decimal =>
    obtain ⟨d, hd, rfl⟩ := Outcome.map_eq_ok.1 h
    exact Decimal.inRange_of_read (readDecimal_eq_ok.1 hd).2
  | percent =>
    obtain ⟨d, hd, rfl⟩ := Outcome.map_eq_ok.1 h
    obtain ⟨hd, hrange⟩ := readPercent_eq_ok.1 hd
    exact ⟨Decimal.inRange_of_read (readDecimal_eq_ok.1 hd).2, hrange⟩
  | text =>
    cases h
    trivial
  | dateTime =>
    obtain ⟨m, hm, rfl⟩ := Outcome.map_eq_ok.1 h
    exact Moment.valid_of_read (Outcome.mapError_eq_ok.1 hm)
  | color => exact (of_readColor h).2

end Reading

/-! ## What is written is read -/

theorem readDecimal_render {d : Decimal} (h : d.inRange = true) : readDecimal d.render = .ok d :=
  readDecimal_eq_ok.2 ⟨(Decimal.trim_render d).symm, Decimal.read_render h⟩

/-- A number of up to three digits stands between the commas of a color. -/
theorem whole_read_ofNat {n : Nat} (h : n < 1000) : Whole.read (Numeral.ofNat n) = .ok n := by
  have hlength : (Numeral.ofNat n).length ≤ 3 := (Numeral.length_ofNat_le (by decide)).2 h
  exact Whole.read_ofNat (hlength.trans (by decide))

theorem readColor_render {h s b : Nat} (hh : h ≤ 360) (hs : s ≤ 100) (hb : b ≤ 100) :
    readColor (color h s b).render = .ok (color h s b) := by
  have hsplit : (color h s b).render.split ',' = [Numeral.ofNat h, Numeral.ofNat s, Numeral.ofNat b] := by
    refine Text.split_join (by simp) fun p hp hcomma => ?_
    have hdigits : ∀ c ∈ p, c.isDigit = true := by
      simp only [List.mem_cons, List.not_mem_nil, or_false] at hp
      rcases hp with rfl | rfl | rfl <;> exact Numeral.forall_isDigit_ofNat _
    exact absurd (hdigits ',' hcomma) (by decide)
  unfold readColor
  rw [hsplit]
  dsimp only
  rw [whole_read_ofNat (by omega), whole_read_ofNat (by omega), whole_read_ofNat (by omega)]
  show makeColor h s b = _
  unfold makeColor
  rw [if_neg (by omega), if_neg (by omega)]
  rfl

/-- **A value comes back** from what is written of it. -/
theorem read_render {v : Value} (h : v.Valid) : read v.kind v.render = .ok v := by
  cases v with
  | word c first =>
    unfold read kind render
    dsimp only
    rw [Choice.find?_word]
  | decimal d => exact Outcome.map_eq_ok.2 ⟨d, readDecimal_render h, rfl⟩
  | percent d => exact Outcome.map_eq_ok.2 ⟨d, readPercent_eq_ok.2 ⟨readDecimal_render h.1, h.2⟩, rfl⟩
  | text t => rfl
  | dateTime m => exact Outcome.map_eq_ok.2 ⟨m, Outcome.mapError_eq_ok.2 (Moment.read_render h), rfl⟩
  | color hue s b => exact readColor_render h.1 h.2.1 h.2.2

/-- **The valid values are the ones that can be read.** -/
theorem valid_iff {v : Value} : v.Valid ↔ ∃ t, read v.kind t = .ok v :=
  ⟨fun h => ⟨v.render, read_render h⟩, fun ⟨_, h⟩ => valid_of_read h⟩

/-- **What is written is a normal form**: a valid value is read from some text, and whatever the text that a kind has read
a value from, that kind reads what is written of it, as the same value, which is written in the same way again. -/
theorem normal_form (v : Value) :
    (v.Valid ↔ ∃ t, read v.kind t = .ok v) ∧
      ∀ (k : ValueKind) (t : Text), read k t = .ok v →
        ∃ w, read k v.render = .ok w ∧ w.Same v ∧ w.render = v.render := by
  refine ⟨valid_iff, fun k t h => ?_⟩
  have hkind : v.kind = k := kind_read h
  have hread := read_render (valid_of_read h)
  rw [hkind] at hread
  exact ⟨v, hread, Same.refl v, rfl⟩

/-- An instant of a week date in basic form, with a fraction cut after six digits and a distance from UTC. -/
theorem normal_form_dateTime :
    let t := Text.of "2020W537T233000,1234567+0530"
    let v := dateTime ⟨⟨2021, 1, 3⟩, 23, 30, 0, 123456, some 19800000000⟩
    v.render = .of "2021-01-03T23:30:00.123456+05:30" ∧ read .dateTime t = .ok v ∧
      ∃ w, read .dateTime v.render = .ok w ∧ w.Same v ∧ w.render = v.render := by
  intro t v
  have hread : read .dateTime t = .ok v := by decide +kernel
  exact ⟨by decide +kernel, hread, (normal_form v).2 .dateTime t hread⟩

end Value

end RequestRules
