import RequestRules.Number.Decimal
import RequestRules.Proofs.Number.Numeral
import RequestRules.Text.Blank

/-!
# Decimal numbers come back

The written form of a decimal gives back its sign, its coefficient and its exponent (`Decimal.readMagnitude?_render`), so
a decimal within the range of exponents is read from what is written of it (`Decimal.read_render`).  Both layouts, in full
and with an exponent, are digits with a point somewhere, and perhaps an exponent behind.  No other characters are read as
a number (`Decimal.isMark_of_read`).
-/

namespace RequestRules

namespace Decimal

variable {ds fs rest : Text} {c : CodePoint} {n : Nat} {e : Int}

/-! ## Reading digits with a point -/

/-- The text does not go on with digits or a point. -/
def EndsDigits (rest : Text) : Prop := ∀ c ∈ rest.head?, c.isDigit = false ∧ c ≠ '.'

theorem endsDigits_nil : EndsDigits [] := by simp [EndsDigits]

theorem endsDigits_renderExponent (e : Int) : EndsDigits (renderExponent e) := by
  simp [EndsDigits, renderExponent]

theorem readMagnitude?_digits (hne : ds ≠ []) (hds : ∀ c ∈ ds, c.isDigit = true) (hrest : EndsDigits rest) :
    readMagnitude? (ds ++ rest) = (readExponent? rest).map fun e => (Numeral.value ds, e) := by
  have hspan : (ds ++ rest).span CodePoint.isDigit = (ds, rest) := Text.span_append hds fun c hc => (hrest c hc).1
  unfold readMagnitude?
  rw [hspan]
  dsimp only
  split
  · next heq => exact absurd rfl (hrest '.' rfl).2
  · simp [hne]

theorem readMagnitude?_point (hne : ds ≠ []) (hds : ∀ c ∈ ds, c.isDigit = true) (hfs : ∀ c ∈ fs, c.isDigit = true)
    (hrest : EndsDigits rest) : readMagnitude? (ds ++ .char '.' :: (fs ++ rest)) =
      (readExponent? rest).map fun e => (Numeral.value (ds ++ fs), e - (fs.length : Int)) := by
  have hspan : (ds ++ .char '.' :: (fs ++ rest)).span CodePoint.isDigit = (ds, .char '.' :: (fs ++ rest)) :=
    Text.span_append hds (by simp)
  have hfraction : (fs ++ rest).span CodePoint.isDigit = (fs, rest) := Text.span_append hfs fun c hc => (hrest c hc).1
  unfold readMagnitude?
  simp only [hspan, hfraction]
  simp [hne]

/-- Digits with a point behind the first `n` are read as the digits, of which those behind the point count in the
exponent. -/
theorem readMagnitude?_pointed (hn : 0 < n) (hne : ds ≠ []) (hds : ∀ c ∈ ds, c.isDigit = true) (hrest : EndsDigits rest) :
    readMagnitude? (pointed n ds ++ rest) =
      (readExponent? rest).map fun e => (Numeral.value ds, e - ((ds.length - n : Nat) : Int)) := by
  unfold pointed
  split
  · next hle =>
    rw [readMagnitude?_digits hne hds hrest, Nat.sub_eq_zero_of_le hle]
    simp
  · have htake : ds.take n ≠ [] := by simp [hne, Nat.ne_of_gt hn]
    rw [List.append_assoc, List.cons_append, readMagnitude?_point htake (fun c hc => hds c (List.mem_of_mem_take hc))
      (fun c hc => hds c (List.mem_of_mem_drop hc)) hrest, List.take_append_drop, List.length_drop]

theorem takeSign_of_ne {a : CodePoint} {t : Text} (hminus : a ≠ '-') (hplus : a ≠ '+') :
    takeSign (a :: t) = (false, a :: t) := by
  unfold takeSign
  split
  · next heq => exact absurd (List.cons.inj heq).1 hminus
  · next heq => exact absurd (List.cons.inj heq).1 hplus
  · rfl

theorem takeSign_of_isDigit {a : CodePoint} {t : Text} (ha : a.isDigit = true) : takeSign (a :: t) = (false, a :: t) :=
  takeSign_of_ne (Numeral.ne_of_isDigit ha rfl) (Numeral.ne_of_isDigit ha rfl)

theorem readExponent?_render (e : Int) : readExponent? (renderExponent e) = some e := by
  have hdigits : ∀ n, (!(Numeral.ofNat n).isEmpty) = true ∧ (Numeral.ofNat n).all CodePoint.isDigit = true := by
    intro n
    have hall := List.all_eq_true.2 (Numeral.forall_isDigit_ofNat n)
    simp [Numeral.ofNat_ne_nil, hall]
  unfold renderExponent readExponent?
  by_cases he : e < 0
  · obtain ⟨n, rfl⟩ := Int.eq_negSucc_of_lt_zero he
    rw [if_pos he, Numeral.ofInt_negSucc]
    simp [takeSign, hdigits, Numeral.value_ofNat, Int.negSucc_eq]
  · obtain ⟨n, rfl⟩ := Int.eq_ofNat_of_zero_le (Int.not_lt.1 he)
    rw [if_neg he, Numeral.ofInt_natCast]
    simp [takeSign, hdigits, Numeral.value_ofNat]

/-! ## What is written is read -/

/-- **The magnitude comes back**: the coefficient and the exponent, not only the number. -/
theorem readMagnitude?_render (coefficient : Nat) (exponent : Int) :
    readMagnitude? (renderMagnitude coefficient exponent) = some (coefficient, exponent) := by
  have hvalue := Numeral.value_ofNat coefficient
  have hdigits := Numeral.forall_isDigit_ofNat coefficient
  have hne := Numeral.ofNat_ne_nil coefficient
  have hpos := Numeral.length_ofNat_pos coefficient
  unfold renderMagnitude
  dsimp only
  generalize Numeral.ofNat coefficient = ds at *
  split
  · next hfull =>
    split
    · next hleft =>
      -- the point stands among the digits, or behind them
      have hcount : (0 : Int) - ((ds.length - (exponent + ds.length).toNat : Nat) : Int) = exponent := by omega
      have hread := readMagnitude?_pointed (by omega : 0 < (exponent + ds.length).toNat) hne hdigits endsDigits_nil
      rw [List.append_nil] at hread
      rw [hread, readExponent?, Option.map_some, hvalue, hcount]
    · -- the point stands before the digits, and zeros between
      set zeros := List.replicate (-(exponent + ds.length)).toNat (CodePoint.char '0') with hzeros
      have hfraction : ∀ c ∈ zeros ++ ds, c.isDigit = true := by
        intro c hc
        rcases List.mem_append.1 hc with hc | hc
        · rw [List.eq_of_mem_replicate hc]
          rfl
        · exact hdigits c hc
      have hcount : (0 : Int) - (zeros ++ ds).length = exponent := by
        rw [hzeros, List.length_append, List.length_replicate]
        omega
      have hzero : Numeral.value (Text.of "0" ++ (zeros ++ ds)) = coefficient := by
        rw [← hvalue, hzeros]
        exact (Numeral.value_zeros_append 1 _).trans (Numeral.value_zeros_append _ ds)
      have hread := readMagnitude?_point (by decide : Text.of "0" ≠ []) (by decide) hfraction endsDigits_nil
      rw [List.append_nil, hzero] at hread
      exact hread.trans (by rw [readExponent?, Option.map_some, hcount])
  · -- one digit before the point
    split
    · next hleft =>
      have hcount : (0 : Int) - ((ds.length - 1 : Nat) : Int) = exponent := by omega
      rw [readMagnitude?_pointed Nat.one_pos hne hdigits endsDigits_nil, readExponent?, Option.map_some, hvalue, hcount]
    · have hcount : exponent + ds.length - 1 - ((ds.length - 1 : Nat) : Int) = exponent := by omega
      rw [readMagnitude?_pointed Nat.one_pos hne hdigits (endsDigits_renderExponent _), readExponent?_render, Option.map_some,
        hvalue, hcount]

/-! ## The characters of a written number -/

/-- A character that a number is written with. -/
def IsMark (c : CodePoint) : Prop := c.isDigit = true ∨ c = '-' ∨ c = '+' ∨ c = '.' ∨ c = 'E'

theorem isMark_of_mem_pointed (hds : ∀ c ∈ ds, c.isDigit = true) (h : c ∈ pointed n ds) : IsMark c := by
  unfold pointed at h
  split at h
  · exact .inl (hds c h)
  · rcases List.mem_append.1 h with h | h
    · exact .inl (hds c (List.mem_of_mem_take h))
    · rcases List.mem_cons.1 h with rfl | h
      · simp [IsMark]
      · exact .inl (hds c (List.mem_of_mem_drop h))

theorem isMark_of_mem_ofInt (h : c ∈ Numeral.ofInt e) : IsMark c := by
  cases e with
  | ofNat n => exact .inl (Numeral.isDigit_of_mem_ofNat h)
  | negSucc n =>
    rcases List.mem_cons.1 h with rfl | h
    · simp [IsMark]
    · exact .inl (Numeral.isDigit_of_mem_ofNat h)

theorem isMark_of_mem_renderExponent (h : c ∈ renderExponent e) : IsMark c := by
  unfold renderExponent at h
  rcases List.mem_cons.1 h with rfl | h
  · simp [IsMark]
  · split at h
    · exact isMark_of_mem_ofInt h
    · rcases List.mem_cons.1 h with rfl | h
      · simp [IsMark]
      · exact isMark_of_mem_ofInt h

theorem isMark_of_mem_renderMagnitude (h : c ∈ renderMagnitude n e) : IsMark c := by
  have hdigits := Numeral.forall_isDigit_ofNat n
  unfold renderMagnitude at h
  dsimp only at h
  split at h
  · split at h
    · exact isMark_of_mem_pointed hdigits h
    · simp only [List.mem_cons, List.mem_append] at h
      rcases h with rfl | rfl | h | h
      · simp [IsMark]
      · simp [IsMark]
      · rw [List.eq_of_mem_replicate h]
        simp [IsMark]
      · exact .inl (hdigits c h)
  · rcases List.mem_append.1 h with h | h
    · exact isMark_of_mem_pointed hdigits h
    · split at h
      · exact absurd h List.not_mem_nil
      · exact isMark_of_mem_renderExponent h

theorem isMark_of_mem_render {d : Decimal} (h : c ∈ d.render) : IsMark c := by
  unfold render at h
  rcases List.mem_append.1 h with h | h
  · split at h
    · rw [List.mem_singleton.1 h]
      simp [IsMark]
    · exact absurd h List.not_mem_nil
  · exact isMark_of_mem_renderMagnitude h

/-- A number is written in ASCII. -/
theorem IsMark.isAscii (h : IsMark c) : c.toNat < 128 := by
  rcases h with h | rfl | rfl | rfl | rfl
  · exact Whole.isAscii_of_isDigit h
  all_goals decide

theorem IsMark.not_isBlank (h : IsMark c) : isBlank c = false := by
  rcases h with h | rfl | rfl | rfl | rfl
  · have hdigit := CodePoint.isDigit_iff_toNat.1 h
    have hzero : '0'.toNat = 48 := rfl
    have hnine : '9'.toNat = 57 := rfl
    simp only [isBlank, decide_eq_false_iff_not]
    omega
  all_goals decide

theorem trim_render (d : Decimal) : d.render.trim = d.render :=
  Text.trim_eq_self fun _ hc => (isMark_of_mem_render hc).not_isBlank

theorem plain_render (d : Decimal) : plain d.render = d.render := by
  have hfilter : d.render.filter (· ≠ .char '_') = d.render := by
    rw [List.filter_eq_self]
    intro c hc
    have hne : c ≠ '_' := by
      rintro rfl
      have hmark := isMark_of_mem_render hc
      simp [IsMark] at hmark
    simpa using hne
  unfold plain
  rw [hfilter]
  refine (List.map_congr_left fun c hc => ?_).trans (List.map_id _)
  have hascii := (isMark_of_mem_render hc).isAscii
  exact asciiDigit?_getD (by omega)

/-- The first character of a written magnitude is a digit. -/
theorem takeSign_renderMagnitude (coefficient : Nat) (exponent : Int) :
    takeSign (renderMagnitude coefficient exponent) = (false, renderMagnitude coefficient exponent) := by
  have hpointed : ∀ (rest : Text) {ds : Text} {n : Nat}, ds ≠ [] → (∀ c ∈ ds, c.isDigit = true) → 0 < n →
      takeSign (pointed n ds ++ rest) = (false, pointed n ds ++ rest) := by
    intro rest ds n hne hds hn
    obtain ⟨a, t, rfl⟩ := List.exists_cons_of_ne_nil hne
    obtain ⟨m, rfl⟩ := Nat.exists_eq_add_one.2 hn
    unfold pointed
    split <;> exact takeSign_of_isDigit (hds a List.mem_cons_self)
  have hdigits := Numeral.forall_isDigit_ofNat coefficient
  have hne := Numeral.ofNat_ne_nil coefficient
  unfold renderMagnitude
  dsimp only
  split
  · split
    · have htake := hpointed [] hne hdigits (by omega : 0 < (exponent + (Numeral.ofNat coefficient).length).toNat)
      rwa [List.append_nil] at htake
    · exact takeSign_of_isDigit rfl
  · exact hpointed _ hne hdigits Nat.one_pos

/-- **A decimal comes back**: what is written of a decimal within the range of exponents is read as that decimal. -/
theorem read_render {d : Decimal} (h : d.inRange = true) : read d.render = .number d := by
  obtain ⟨negative, coefficient, exponent⟩ := d
  have hsign : takeSign (render ⟨negative, coefficient, exponent⟩) = (negative, renderMagnitude coefficient exponent) := by
    cases negative with
    | true => rfl
    | false => exact takeSign_renderMagnitude coefficient exponent
  unfold read
  rw [plain_render, hsign]
  dsimp only
  rw [readMagnitude?_render]
  exact if_pos h

/-- What is read is within the range of exponents. -/
theorem inRange_of_read {t : Text} {d : Decimal} (h : read t = .number d) : d.inRange = true := by
  unfold read at h
  dsimp only at h
  split at h
  · split at h
    · next hrange =>
      cases h
      exact hrange
    · exact absurd h (by simp)
  · split at h <;> exact absurd h (by simp)

/-! ## The characters of a number that is read -/

section Characters

variable {t : Text}

theorem isMark_or_mem_takeSign (h : c ∈ t) : IsMark c ∨ c ∈ (takeSign t).2 := by
  unfold takeSign
  split
  · rcases List.mem_cons.1 h with rfl | h
    · exact .inl (by simp [IsMark])
    · exact .inr h
  · rcases List.mem_cons.1 h with rfl | h
    · exact .inl (by simp [IsMark])
    · exact .inr h
  · exact .inr h

theorem isMark_or_mem_span (h : c ∈ t) : IsMark c ∨ c ∈ (t.span CodePoint.isDigit).2 := by
  rw [List.span_eq_takeWhile_dropWhile]
  rw [← List.takeWhile_append_dropWhile (p := CodePoint.isDigit) (l := t)] at h
  rcases List.mem_append.1 h with h | h
  · exact .inl (.inl (List.mem_takeWhile_imp h))
  · exact .inr h

theorem isMark_of_readExponent? (h : readExponent? t = some e) (hc : c ∈ t) : IsMark c ∨ c = 'e' := by
  cases t with
  | nil => exact absurd hc List.not_mem_nil
  | cons a t =>
    unfold readExponent? at h
    dsimp only at h
    split_ifs at h with ha hdigits
    all_goals
      rcases List.mem_cons.1 hc with rfl | hc
      · rcases ha with rfl | rfl <;> simp [IsMark]
      · rcases isMark_or_mem_takeSign hc with hc | hc
        · exact .inl hc
        · exact .inl (.inl (List.all_eq_true.1 hdigits.2 c hc))

theorem isMark_of_readMagnitude? {m : Nat × Int} (h : readMagnitude? t = some m) (hc : c ∈ t) : IsMark c ∨ c = 'e' := by
  unfold readMagnitude? at h
  rcases isMark_or_mem_span hc with hc | hc
  · exact .inl hc
  generalize t.span CodePoint.isDigit = parts at h hc
  obtain ⟨whole, rest⟩ := parts
  dsimp only at h hc
  split at h
  · -- a point follows, and digits behind it
    rcases List.mem_cons.1 hc with rfl | hc
    · exact .inl (by simp [IsMark])
    rcases isMark_or_mem_span hc with hc | hc
    · exact .inl hc
    · split_ifs at h
      obtain ⟨e, he, _⟩ := Option.map_eq_some_iff.1 h
      exact isMark_of_readExponent? he hc
  · split_ifs at h
    obtain ⟨e, he, _⟩ := Option.map_eq_some_iff.1 h
    exact isMark_of_readExponent? he hc

/-- A number is read from the characters that numbers are written with, and perhaps a small letter before the exponent. -/
theorem isMark_of_read {d : Decimal} (h : read t = .number d) (hc : c ∈ plain t) : IsMark c ∨ c = 'e' := by
  unfold read at h
  dsimp only at h
  rcases isMark_or_mem_takeSign hc with hc | hc
  · exact .inl hc
  · split at h
    · next hm => exact isMark_of_readMagnitude? hm hc
    · split_ifs at h

theorem comma_not_mem_of_read {d : Decimal} (h : read t = .number d) : .char ',' ∉ t := by
  intro hc
  have hplain : .char ',' ∈ plain t := List.mem_map.2 ⟨',', List.mem_filter.2 ⟨hc, by decide⟩, asciiDigit?_getD (by decide)⟩
  have hmark := isMark_of_read h hplain
  simp [IsMark] at hmark

end Characters

end Decimal

end RequestRules
