import RequestRules.Calendar.Moment.Reader
import RequestRules.Proofs.Calendar.Date
import RequestRules.Proofs.Outcome

/-!
# Moments come back

`Moment.Valid` are the moments that can be read (`Moment.valid_of_read`), and each of them is read from what is written of
it (`Moment.read_render`).  A distance from UTC without a whole second is read as zero, so a valid distance is zero or has
a whole second.
-/

namespace RequestRules

namespace Moment

/-- The moment exists, and its distance from UTC is one that can be read. -/
structure Valid (m : Moment) : Prop where
  date : m.date.Valid
  hour : m.hour ≤ 23
  minute : m.minute ≤ 59
  second : m.second ≤ 59
  micro : m.micro < 1000000
  offset_lt : ∀ o ∈ m.offset, -microsPerDay < o ∧ o < microsPerDay
  offset_whole : ∀ o ∈ m.offset, o = 0 ∨ 1000000 ≤ o.natAbs

theorem checkOffset_eq_ok {o : Int} {u : Unit} : checkOffset o = .ok u ↔ -microsPerDay < o ∧ o < microsPerDay := by
  unfold checkOffset
  split <;> simp_all

theorem make_eq_ok {year month day hour minute second micro : Nat} {offset : Option Int} {m : Moment} :
    make year month day hour minute second micro offset = .ok m ↔
      (∀ o ∈ offset, -microsPerDay < o ∧ o < microsPerDay) ∧ (⟨year, month, day⟩ : Date).Valid ∧ hour ≤ 23 ∧
        minute ≤ 59 ∧ second ≤ 59 ∧ m = ⟨⟨year, month, day⟩, hour, minute, second, micro, offset⟩ := by
  have htime : ∀ date : Date,
      (if 23 < hour then .error .hour
        else if 59 < minute then .error .minute
        else if 59 < second then .error .second
        else .ok ⟨date, hour, minute, second, micro, offset⟩ : Except CalendarError Moment) = .ok m ↔
      hour ≤ 23 ∧ minute ≤ 59 ∧ second ≤ 59 ∧ m = ⟨date, hour, minute, second, micro, offset⟩ := by
    intro date
    split_ifs with hh hm hs <;> simp_all [eq_comm]
  cases offset <;> simp [make, Outcome.bind_eq_ok, htime, Date.make_eq_ok, checkOffset_eq_ok, and_assoc]

/-! ## Fields of fixed width -/

theorem digits?_eq_some {n v : Nat} {t r : Text} (h : digits? n t = some (v, r)) : v < 10 ^ n := by
  unfold digits? at h
  dsimp only at h
  split at h
  · next hds =>
    cases h
    have hlt := Numeral.value_lt (List.all_eq_true.1 hds.2)
    rwa [hds.1] at hlt
  · exact absurd h (by simp)

theorem digits?_padded {n x : Nat} (hn : 0 < n) (hx : x < 10 ^ n) (t : Text) :
    digits? n (Numeral.padded n x ++ t) = some (x, t) := by
  have hlength := Numeral.length_padded hn hx
  have hall : (Numeral.padded n x).all CodePoint.isDigit = true :=
    List.all_eq_true.2 fun _ => Numeral.isDigit_of_mem_padded
  unfold digits?
  rw [List.take_left' hlength, List.drop_left' hlength, if_pos ⟨hlength, hall⟩, Numeral.value_padded]

theorem padded_append_ne_nil (w n : Nat) (t : Text) : Numeral.padded w n ++ t ≠ [] := by
  simp [Numeral.padded, Numeral.ofNat_ne_nil]

theorem afterField_colon {t : Text} (h : t ≠ []) : afterField true (':' :: t) = .field t := by
  cases t with
  | nil => exact absurd rfl h
  | cons c t => rfl

theorem afterField_point {t : Text} (h : t ≠ []) : afterField true ('.' :: t) = .fraction t := by
  cases t with
  | nil => exact absurd rfl h
  | cons c t => rfl

/-! ## What is read -/

theorem micro_lt_of_withFraction? {clock c : Clock} {t : Text} (h : withFraction? clock t = some c) :
    c.micro < 1000000 := by
  obtain ⟨⟨v, r⟩, hdigits, rfl⟩ := Option.map_eq_some_iff.1 h
  have hv : v < 10 ^ min 6 t.length := digits?_eq_some hdigits
  have hpow : 10 ^ min 6 t.length * 10 ^ (6 - min 6 t.length) = 1000000 := by
    rw [← pow_add, Nat.add_sub_cancel' (Nat.min_le_left 6 t.length)]
    rfl
  calc v * 10 ^ (6 - min 6 t.length) < 10 ^ min 6 t.length * 10 ^ (6 - min 6 t.length) :=
        Nat.mul_lt_mul_of_pos_right hv (Nat.pow_pos (by decide))
    _ = 1000000 := hpow

theorem micro_lt_of_withSecond? {colons : Bool} {clock c : Clock} {t : Text} (hclock : clock.micro < 1000000)
    (h : withSecond? colons clock t = some c) : c.micro < 1000000 := by
  obtain ⟨⟨v, r⟩, _, h⟩ := Option.bind_eq_some_iff.1 h
  dsimp only at h
  split at h
  · cases h
    exact hclock
  · exact micro_lt_of_withFraction? h
  · exact micro_lt_of_withFraction? h
  · exact absurd h (by simp)

theorem micro_lt_of_withMinute? {colons : Bool} {clock c : Clock} {t : Text} (hclock : clock.micro < 1000000)
    (h : withMinute? colons clock t = some c) : c.micro < 1000000 := by
  obtain ⟨⟨v, r⟩, _, h⟩ := Option.bind_eq_some_iff.1 h
  dsimp only at h
  split at h
  · cases h
    exact hclock
  · refine micro_lt_of_withSecond? ?_ h
    exact hclock
  · exact micro_lt_of_withFraction? h
  · exact absurd h (by simp)

theorem micro_lt_of_readClock? {c : Clock} {t : Text} (h : readClock? t = some c) : c.micro < 1000000 := by
  obtain ⟨⟨v, r⟩, _, h⟩ := Option.bind_eq_some_iff.1 h
  dsimp only at h
  split at h
  · cases h
    exact Nat.zero_lt_succ _
  · refine micro_lt_of_withMinute? ?_ h
    exact Nat.zero_lt_succ _
  · exact micro_lt_of_withFraction? h
  · exact absurd h (by simp)

theorem whole_distance (negative : Bool) (c : Clock) : c.distance negative = 0 ∨ 1000000 ≤ (c.distance negative).natAbs := by
  unfold Clock.distance
  dsimp only
  split
  · exact .inl rfl
  · right
    split <;> omega

theorem whole_of_readOffset? {t : Text} {o : Int} (h : readOffset? t = some o) : o = 0 ∨ 1000000 ≤ o.natAbs := by
  unfold readOffset? at h
  split at h
  · split at h
    · exact absurd h (by simp)
    · cases h
      exact .inl rfl
  · obtain ⟨c, _, h⟩ := Option.bind_eq_some_iff.1 h
    split at h
    · exact absurd h (by simp)
    · cases h
      exact whole_distance _ c
  · exact absurd h (by simp)

theorem facts_of_readTime? {t : Text} {c : Clock} {offset : Option Int} (h : readTime? t = some (c, offset)) :
    c.micro < 1000000 ∧ ∀ o ∈ offset, o = 0 ∨ 1000000 ≤ o.natAbs := by
  obtain ⟨c', hclock, h⟩ := Option.bind_eq_some_iff.1 h
  have hmicro := micro_lt_of_readClock? hclock
  split at h
  · split at h
    · exact absurd h (by simp)
    · cases h
      exact ⟨hmicro, by simp⟩
  · obtain ⟨o, ho, h⟩ := Option.bind_eq_some_iff.1 h
    cases h
    refine ⟨hmicro, fun o' ho' => ?_⟩
    cases ho'
    exact whole_of_readOffset? ho

/-- **What is read is valid.** -/
theorem valid_of_read {t : Text} {m : Moment} (h : read t = .ok m) : m.Valid := by
  unfold read at h
  split at h
  · exact absurd h (by simp)
  · next year month day clock offset hfields =>
    obtain ⟨hlt, hdate, hhour, hminute, hsecond, rfl⟩ := make_eq_ok.1 (Outcome.mapError_eq_ok.1 h)
    have hfacts : clock.micro < 1000000 ∧ ∀ o ∈ offset, o = 0 ∨ 1000000 ≤ o.natAbs := by
      obtain ⟨_, hfields⟩ := Option.ite_none_left_eq_some.1 hfields
      obtain ⟨⟨date, rest⟩, _, hfields⟩ := Option.bind_eq_some_iff.1 hfields
      dsimp only at hfields
      split at hfields
      · -- no time is midnight
        cases hfields
        exact ⟨Nat.zero_lt_succ _, by simp⟩
      · obtain ⟨⟨c, o⟩, htime, hfields⟩ := Option.bind_eq_some_iff.1 hfields
        cases hfields
        exact facts_of_readTime? htime
    exact ⟨hdate, hhour, hminute, hsecond, hfacts.1, hlt, hfacts.2⟩

/-! ## What is written is read -/

def fractionText (micro : Nat) : Text := if micro = 0 then [] else '.' :: Numeral.padded 6 micro

def clockText (hour minute second micro : Nat) : Text :=
  Numeral.padded 2 hour ++ .char ':' :: (Numeral.padded 2 minute ++ .char ':' ::
    (Numeral.padded 2 second ++ fractionText micro))

def zoneText : Option Int → Text
  | none => []
  | some o => renderOffset o

theorem render_eq (m : Moment) :
    m.render = m.date.render ++ .char 'T' :: (clockText m.hour m.minute m.second m.micro ++ zoneText m.offset) := by
  obtain ⟨date, hour, minute, second, micro, offset⟩ := m
  cases offset <;> simp only [render, clockText, fractionText, zoneText, List.append_assoc, List.cons_append]

variable {hour minute second micro : Nat}

theorem withFraction?_padded (clock : Clock) (h : micro < 1000000) :
    withFraction? clock (Numeral.padded 6 micro) = some { clock with micro, leftover := false } := by
  have hlength : (Numeral.padded 6 micro).length = 6 := Numeral.length_padded (by decide) h
  have hdigits := digits?_padded (n := 6) (by decide) h []
  rw [List.append_nil] at hdigits
  unfold withFraction?
  rw [hlength]
  simp [hdigits]

theorem withSecond?_render (clock : Clock) (hclock : clock.micro = 0) (hsecond : second < 100) (hmicro : micro < 1000000) :
    withSecond? true clock (Numeral.padded 2 second ++ fractionText micro) =
      some { clock with second, micro, leftover := false } := by
  unfold withSecond? fractionText
  rw [digits?_padded (by decide) hsecond]
  by_cases h : micro = 0
  · simp [h, afterField, ← hclock]
  · have hne := padded_append_ne_nil 6 micro []
    rw [List.append_nil] at hne
    simp [h, afterField_point hne, withFraction?_padded _ hmicro]

theorem withMinute?_render (clock : Clock) (hclock : clock.micro = 0) (hminute : minute < 100) (hsecond : second < 100)
    (hmicro : micro < 1000000) :
    withMinute? true clock (Numeral.padded 2 minute ++ .char ':' :: (Numeral.padded 2 second ++ fractionText micro)) =
      some { clock with minute, second, micro, leftover := false } := by
  have hne := padded_append_ne_nil 2 second (fractionText micro)
  unfold withMinute?
  rw [digits?_padded (by decide) hminute, Option.bind_eq_bind, Option.bind_some]
  dsimp only
  rw [afterField_colon hne]
  exact withSecond?_render { clock with minute } hclock hsecond hmicro

theorem readClock?_render (hhour : hour < 100) (hminute : minute < 100) (hsecond : second < 100) (hmicro : micro < 1000000) :
    readClock? (clockText hour minute second micro) = some ⟨hour, minute, second, micro, false⟩ := by
  have hne := padded_append_ne_nil 2 minute (':' :: (Numeral.padded 2 second ++ fractionText micro))
  unfold readClock? clockText
  rw [digits?_padded (by decide) hhour, Option.bind_eq_bind, Option.bind_some]
  dsimp only
  rw [List.head?_cons, decide_eq_true rfl, afterField_colon hne]
  exact withMinute?_render { hour } rfl hminute hsecond hmicro

theorem readClock?_minutes (hhour : hour < 100) (hminute : minute < 100) :
    readClock? (Numeral.padded 2 hour ++ .char ':' :: Numeral.padded 2 minute) = some ⟨hour, minute, 0, 0, false⟩ := by
  have hne := padded_append_ne_nil 2 minute []
  have hdigits := digits?_padded (n := 2) (by decide) hminute []
  rw [List.append_nil] at hne hdigits
  unfold readClock?
  rw [digits?_padded (by decide) hhour, Option.bind_eq_bind, Option.bind_some]
  dsimp only
  rw [List.head?_cons, decide_eq_true rfl, afterField_colon hne]
  unfold withMinute?
  dsimp only
  rw [hdigits]
  rfl

/-- The time behind the sign of a distance from UTC gives the distance back. -/
theorem distance_clock {o : Int} (h : o = 0 ∨ 1000000 ≤ o.natAbs) :
    (⟨o.natAbs / 1000000 / 3600, o.natAbs / 1000000 / 60 % 60, o.natAbs / 1000000 % 60, o.natAbs % 1000000, false⟩ :
      Clock).distance (o < 0) = o := by
  have hseconds : o.natAbs / 1000000 / 3600 * 3600 + o.natAbs / 1000000 / 60 % 60 * 60 + o.natAbs / 1000000 % 60 =
      o.natAbs / 1000000 := by omega
  unfold Clock.distance
  dsimp only
  rw [hseconds]
  by_cases hzero : o.natAbs / 1000000 = 0
  · rw [if_pos hzero]
    omega
  · rw [if_neg hzero]
    by_cases hneg : o < 0
    · rw [if_pos (decide_eq_true hneg)]
      omega
    · rw [if_neg (by simpa using hneg)]
      omega

theorem readOffset?_render {o : Int} (hlt : -microsPerDay < o ∧ o < microsPerDay) (hwhole : o = 0 ∨ 1000000 ≤ o.natAbs) :
    readOffset? (renderOffset o) = some o := by
  have hday : microsPerDay = 86400000000 := rfl
  have hhour : o.natAbs / 1000000 / 3600 < 100 := by omega
  have hminute : o.natAbs / 1000000 / 60 % 60 < 100 := by omega
  have hsecond : o.natAbs / 1000000 % 60 < 100 := by omega
  have hmicro : o.natAbs % 1000000 < 1000000 := by omega
  have hclock : ∃ t, renderOffset o = (if o < 0 then .char '-' else .char '+') :: t ∧
      readClock? t = some ⟨o.natAbs / 1000000 / 3600, o.natAbs / 1000000 / 60 % 60, o.natAbs / 1000000 % 60,
        o.natAbs % 1000000, false⟩ := by
    refine ⟨_, rfl, ?_⟩
    by_cases h : o.natAbs / 1000000 % 60 = 0 ∧ o.natAbs % 1000000 = 0
    · rw [if_pos h, if_pos h.2, List.append_nil, List.append_nil, readClock?_minutes hhour hminute, h.1, h.2]
    · rw [if_neg h]
      have := readClock?_render hhour hminute hsecond hmicro
      unfold clockText fractionText at this
      simpa using this
  obtain ⟨t, ht, hread⟩ := hclock
  have hdistance := distance_clock hwhole
  rw [ht]
  by_cases hneg : o < 0
  · rw [if_pos hneg]
    rw [decide_eq_true hneg] at hdistance
    simp [readOffset?, hread, hdistance]
  · rw [if_neg hneg]
    rw [decide_eq_false hneg] at hdistance
    simp [readOffset?, hread, hdistance]

theorem readDate?_render {d : Date} (h : d.Valid) (t : Text) :
    readDate? (d.render ++ t) = some ((d.year, d.month, d.day), t) := by
  obtain ⟨year, month, day⟩ := d
  have hyear : year < 10 ^ 4 := Nat.lt_succ_of_le h.year_le
  have hmonth : month < 10 ^ 2 := lt_of_le_of_lt h.month_le (by decide)
  have hday : day < 10 ^ 2 := h.day_lt
  have hhead : ∀ r, Numeral.padded 2 month ++ .char '-' :: (Numeral.padded 2 day ++ t) ≠ .char 'W' :: r := by
    intro r heq
    obtain ⟨c, ds, hcons⟩ := List.exists_cons_of_ne_nil (padded_append_ne_nil 2 month [])
    rw [List.append_nil] at hcons
    rw [hcons] at heq
    obtain rfl := (List.cons.inj heq).1
    exact absurd (Numeral.isDigit_of_mem_padded (hcons ▸ List.mem_cons_self)) (by decide)
  unfold readDate? Date.render
  simp only [List.append_assoc, List.cons_append]
  rw [digits?_padded (by decide) hyear, Option.bind_eq_bind, Option.bind_some]
  dsimp only
  split
  · next heq => exact absurd (List.cons.inj heq).2 (hhead _)
  · next heq => exact absurd (List.cons.inj heq).1 (by decide)
  · next heq =>
    obtain rfl := (List.cons.inj heq).2
    rw [digits?_padded (by decide) hmonth, Option.bind_eq_bind, Option.bind_some]
    dsimp only
    have hstrip : Text.strip? ('-' :: (Numeral.padded 2 day ++ t)) ['-'] = some (Numeral.padded 2 day ++ t) :=
      Text.strip?_append ['-'] _
    rw [hstrip, Option.bind_some, digits?_padded (by decide) hday]
    rfl
  · next hne => exact absurd rfl (hne _)

theorem of_mem_clockText {c : CodePoint} (h : c ∈ clockText hour minute second micro) :
    c.isDigit = true ∨ c = ':' ∨ c = '.' := by
  have hdigit : ∀ w n, c ∈ Numeral.padded w n → c.isDigit = true := fun _ _ => Numeral.isDigit_of_mem_padded
  unfold clockText fractionText at h
  simp only [List.mem_append, List.mem_cons] at h
  split at h <;> grind

/-- The sign of a distance ends the time in front of it. -/
theorem span_time (offset : Option Int) : (clockText hour minute second micro ++ zoneText offset).span
    (fun c => c ≠ .char '+' ∧ c ≠ .char '-' ∧ c ≠ .char 'Z') = (clockText hour minute second micro, zoneText offset) := by
  refine Text.span_append (fun c hc => ?_) (fun c hc => ?_)
  · have hneither : c ≠ '+' ∧ c ≠ '-' ∧ c ≠ 'Z' := by
      refine ⟨?_, ?_, ?_⟩ <;> rintro rfl <;> exact absurd (of_mem_clockText hc) (by decide)
    simpa using hneither
  · cases offset with
    | none => exact absurd hc (by simp [zoneText])
    | some o =>
      obtain rfl : (if o < 0 then .char '-' else .char '+') = c := Option.some.inj hc
      split <;> decide

/-! ### Surrogates -/

theorem isPlain_renderOffset (o : Int) : Text.IsPlain (renderOffset o) := by
  have hsign : Text.IsPlain [if o < 0 then .char '-' else .char '+'] := by
    split <;> exact .cons _ fun _ hc => absurd hc List.not_mem_nil
  have hclock := (Numeral.isPlain_padded 2 (o.natAbs / 1000000 / 3600)).append
    (.cons ':' (Numeral.isPlain_padded 2 (o.natAbs / 1000000 / 60 % 60)))
  exact hsign.append ((hclock.append (.optional (.cons _ (Numeral.isPlain_padded _ _)))).append
    (.optional (.cons _ (Numeral.isPlain_padded _ _))))

theorem isPlain_render (m : Moment) : Text.IsPlain m.render := by
  have hdate : Text.IsPlain m.date.render :=
    (Numeral.isPlain_padded _ _).append (.cons _ ((Numeral.isPlain_padded _ _).append (.cons _ (Numeral.isPlain_padded _ _))))
  have hclock : Text.IsPlain (clockText m.hour m.minute m.second m.micro) :=
    (Numeral.isPlain_padded _ _).append (.cons _ ((Numeral.isPlain_padded _ _).append (.cons _
      ((Numeral.isPlain_padded _ _).append (.optional (.cons _ (Numeral.isPlain_padded _ _)))))))
  have hzone : Text.IsPlain (zoneText m.offset) := by
    cases m.offset with
    | none => exact fun _ hc => absurd hc List.not_mem_nil
    | some o => exact isPlain_renderOffset o
  rw [render_eq]
  exact hdate.append (.cons _ (hclock.append hzone))

theorem plainMark_eq_self {t : Text} (h : Text.IsPlain t) : plainMark t = t := by
  have hnone : [7, 8, 10].find? (fun i => t[i]?.any CodePoint.isSurrogate) = none := by
    refine List.find?_eq_none.2 fun i _ => ?_
    cases hi : t[i]? with
    | none => simp
    | some c => simp [h c (List.mem_of_getElem? hi)]
  unfold plainMark
  rw [hnone]

/-- **What is written of a moment is read as that moment.** -/
theorem read_render {m : Moment} (h : m.Valid) : read m.render = .ok m := by
  have hclock : readClock? (clockText m.hour m.minute m.second m.micro) = some ⟨m.hour, m.minute, m.second, m.micro, false⟩ :=
    readClock?_render (lt_of_le_of_lt h.hour (by decide)) (lt_of_le_of_lt h.minute (by decide))
      (lt_of_le_of_lt h.second (by decide)) h.micro
  have htime : readTime? (clockText m.hour m.minute m.second m.micro ++ zoneText m.offset) =
      some (⟨m.hour, m.minute, m.second, m.micro, false⟩, m.offset) := by
    unfold readTime?
    rw [span_time]
    dsimp only
    rw [hclock]
    cases hoffset : m.offset with
    | none => rfl
    | some o =>
      have hread := readOffset?_render (h.offset_lt o hoffset) (h.offset_whole o hoffset)
      have hne : (renderOffset o).isEmpty = false := rfl
      simp [zoneText, hne, hread]
  have hmake : make m.date.year m.date.month m.date.day m.hour m.minute m.second m.micro m.offset = .ok m :=
    make_eq_ok.2 ⟨h.offset_lt, h.date, h.hour, h.minute, h.second, rfl⟩
  have hparts : readParts? m.render =
      some ((m.date.year, m.date.month, m.date.day), ⟨m.hour, m.minute, m.second, m.micro, false⟩, m.offset) := by
    unfold readParts?
    rw [render_eq, readDate?_render h.date, Option.bind_eq_bind, Option.bind_some]
    dsimp only
    rw [htime, Option.bind_eq_bind, Option.bind_some]
    rfl
  have hplain := isPlain_render m
  unfold read
  rw [plainMark_eq_self hplain, if_neg (by simpa [Text.IsPlain] using hplain), hparts]
  exact Outcome.mapError_eq_ok.2 hmake

end Moment

end RequestRules
