import RequestRules.Proofs.Json.Text
import RequestRules.Proofs.Number.Numeral

/-!
# JSON comes back

A value is `Json.Exact` if it holds no number with a fraction, and no object names a field twice.  `Json.read?_render`: what
is read of such a value, written with an indent of blank characters, is the value with the pairs of surrogates in its texts
and names joined (`Json.joined`).  That is the value itself if there are none (`Json.Exact.joined_eq`).
-/

namespace RequestRules

namespace Json

/-- The value holds no number with a fraction, and no object names a field twice. -/
inductive Exact : Json → Prop
  | null : Exact null
  | bool (b : Bool) : Exact (bool b)
  | int (n : Int) : Exact (int n)
  | text (t : Text) : Exact (text t)
  | list {xs : List Json} (items : ∀ x ∈ xs, Exact x) : Exact (list xs)
  | object {fs : List (Text × Json)} (names : (fs.map (·.1)).Nodup) (values : ∀ f ∈ fs, Exact f.2) : Exact (object fs)

/-! ## Pairs of surrogates -/

mutual
/-- The value with all texts and names joined.  Of two fields whose names become one the later counts, in the place of the
first. -/
def joined : Json → Json
  | text t => text t.joined
  | list xs => list (joinedItems xs)
  | object fs => object (joinedFields [] fs)
  | null => null
  | bool b => bool b
  | int n => int n
  | real x => real x
def joinedItems : List Json → List Json
  | [] => []
  | x :: xs => joined x :: joinedItems xs
/-- The fields of `acc`, and behind them the others. -/
def joinedFields (acc : List (Text × Json)) : List (Text × Json) → List (Text × Json)
  | [] => acc
  | (k, v) :: fs => joinedFields (setField acc k.joined (joined v)) fs
end

mutual
/-- The texts in a value, and the names of fields. -/
def texts : Json → List Text
  | text t => [t]
  | list xs => textsOfItems xs
  | object fs => textsOfFields fs
  | null | bool _ | int _ | real _ => []
def textsOfItems : List Json → List Text
  | [] => []
  | x :: xs => texts x ++ textsOfItems xs
def textsOfFields : List (Text × Json) → List Text
  | [] => []
  | (k, v) :: fs => k :: texts v ++ textsOfFields fs
end

def Unpaired (j : Json) : Prop := ∀ t ∈ j.texts, t.Unpaired

instance : DecidablePred Unpaired := fun j => List.decidableBAll Text.Unpaired j.texts

theorem joinedItems_eq (xs : List Json) : joinedItems xs = xs.map joined := by
  induction xs with
  | nil => rfl
  | cons x xs ih => rw [joinedItems, ih, List.map_cons]

theorem textsOfItems_eq (xs : List Json) : textsOfItems xs = xs.flatMap texts := by
  induction xs with
  | nil => rfl
  | cons x xs ih => rw [textsOfItems, ih, List.flatMap_cons]

theorem textsOfFields_eq (fs : List (Text × Json)) : textsOfFields fs = fs.flatMap fun f => f.1 :: f.2.texts := by
  induction fs with
  | nil => rfl
  | cons f fs ih => rw [textsOfFields, ih, List.flatMap_cons]

theorem unpaired_list {xs : List Json} : Unpaired (list xs) ↔ ∀ x ∈ xs, Unpaired x := by
  unfold Unpaired
  rw [texts, textsOfItems_eq]
  exact ⟨fun h x hx t ht => h t (List.mem_flatMap.2 ⟨x, hx, ht⟩), fun h t ht => by
    obtain ⟨x, hx, ht⟩ := List.mem_flatMap.1 ht
    exact h x hx t ht⟩

theorem unpaired_object {fs : List (Text × Json)} : Unpaired (object fs) ↔ ∀ f ∈ fs, f.1.Unpaired ∧ Unpaired f.2 := by
  unfold Unpaired
  rw [texts, textsOfFields_eq]
  constructor
  · intro h f hf
    have hmem := fun t ht => h t (List.mem_flatMap.2 ⟨f, hf, ht⟩)
    exact ⟨hmem _ List.mem_cons_self, fun t ht => hmem t (List.mem_cons_of_mem _ ht)⟩
  · intro h t ht
    obtain ⟨f, hf, ht⟩ := List.mem_flatMap.1 ht
    rcases List.mem_cons.1 ht with rfl | ht
    · exact (h f hf).1
    · exact (h f hf).2 t ht

/-- The name of a field behind others of other names. -/
theorem not_mem_of_nodup {k : Text} {v : Json} {fs acc : List (Text × Json)}
    (h : ((acc ++ (k, v) :: fs).map (·.1)).Nodup) : k ∉ acc.map (·.1) := by
  rw [List.map_append, List.map_cons] at h
  exact fun hk => (List.nodup_append.1 h).2.2 k hk k List.mem_cons_self rfl

theorem setField_of_not_mem {fs : List (Text × Json)} {k : Text} (h : k ∉ fs.map (·.1)) (v : Json) :
    setField fs k v = fs ++ [(k, v)] := by
  induction fs with
  | nil => rfl
  | cons f fs ih =>
    obtain ⟨l, w⟩ := f
    rw [List.map_cons, List.mem_cons, not_or] at h
    rw [setField, if_neg h.1, ih h.2, List.cons_append]

/-- Fields whose names stay as they are come behind others of other names. -/
theorem joinedFields_eq (acc : List (Text × Json)) {fs : List (Text × Json)} (hnames : ((acc ++ fs).map (·.1)).Nodup)
    (h : ∀ f ∈ fs, f.1.Unpaired) : joinedFields acc fs = acc ++ fs.map fun f => (f.1, f.2.joined) := by
  induction fs generalizing acc with
  | nil => rw [joinedFields, List.map_nil, List.append_nil]
  | cons f fs ih =>
    obtain ⟨k, v⟩ := f
    rw [joinedFields, (h (k, v) List.mem_cons_self).joined_eq, setField_of_not_mem (not_mem_of_nodup hnames),
      ih (acc ++ [(k, v.joined)]) (by simpa using hnames) fun f hf => h f (List.mem_cons_of_mem _ hf)]
    simp

theorem joined_object {fs : List (Text × Json)} (hnames : (fs.map (·.1)).Nodup) (h : ∀ f ∈ fs, f.1.Unpaired) :
    (object fs).joined = object (fs.map fun f => (f.1, f.2.joined)) :=
  congrArg object (joinedFields_eq [] hnames h)

theorem joined_list (xs : List Json) : (list xs).joined = list (xs.map joined) := congrArg list (joinedItems_eq xs)

/-- **Without pairs of surrogates a value stays as it is.** -/
theorem Exact.joined_eq {j : Json} (h : Exact j) (hpairs : Unpaired j) : j.joined = j := by
  induction h with
  | null => rfl
  | bool b => rfl
  | int n => rfl
  | text t => exact congrArg Json.text (hpairs t List.mem_cons_self).joined_eq
  | list items ih =>
    rw [joined_list, List.map_congr_left fun x hx => ih x hx (unpaired_list.1 hpairs x hx), List.map_id']
  | @object fs names values ih =>
    have hfields : ∀ f ∈ fs, (f.1, f.2.joined) = f := fun f hf => by
      rw [ih f hf (unpaired_object.1 hpairs f hf).2]
    rw [joined_object names fun f hf => (unpaired_object.1 hpairs f hf).1, List.map_congr_left hfields, List.map_id']

/-! ## Between the parts -/

/-- The text is nothing but blank characters. -/
def IsGap (g : Text) : Prop := ∀ c ∈ g, (c = ' ' || c = '\t' || c = '\n' || c = '\r') = true

theorem isGap_blanks (n : Int) : IsGap (blanks n) := by
  intro c hc
  rw [List.eq_of_mem_replicate hc]
  rfl

/-- The text does not go on with a number. -/
def EndsNumber (r : Text) : Prop := ∀ c ∈ r.head?, c = ',' ∨ c = ']' ∨ c = '}' ∨ c = '\n'

section Gaps

variable {g t : Text} {fuel : Nat}

theorem skip_gap (h : IsGap g) (t : Text) : skip (g ++ t) = skip t := List.dropWhile_append_of_pos h

theorem readValue?_gap (h : IsGap g) (fuel : Nat) (t : Text) : readValue? fuel (g ++ t) = readValue? fuel t := by
  cases fuel with
  | zero => rfl
  | succ fuel => simp only [readValue?, skip_gap h]

theorem readItems?_gap (h : IsGap g) (fuel : Nat) (t : Text) : readItems? fuel (g ++ t) = readItems? fuel t := by
  cases fuel with
  | zero => rfl
  | succ fuel => simp only [readItems?, readValue?_gap h]

theorem readFields?_gap (h : IsGap g) (fuel : Nat) (fs : List (Text × Json)) (t : Text) :
    readFields? fuel fs (g ++ t) = readFields? fuel fs t := by
  cases fuel with
  | zero => rfl
  | succ fuel => simp only [readFields?, skip_gap h]

def IsBlank (indent : Option Text) : Prop := ∀ g ∈ indent, IsGap g

theorem isBlank_none : IsBlank none := fun _ h => nomatch h

theorem isBlank_blanks (n : Int) : IsBlank (some (blanks n)) := fun _ h => Option.some.inj h ▸ isGap_blanks n

theorem isGap_newline {indent : Option Text} (h : IsBlank indent) (depth : Nat) : IsGap (newline indent depth) := by
  intro c hc
  cases indent with
  | none => exact absurd hc List.not_mem_nil
  | some t =>
    rcases List.mem_cons.1 hc with rfl | hc
    · rfl
    · obtain ⟨u, hu, hc⟩ := List.mem_flatten.1 hc
      rw [List.eq_of_mem_replicate hu] at hc
      exact h t rfl c hc

theorem comma_eq {indent : Option Text} (h : IsBlank indent) (depth : Nat) :
    ∃ g, comma indent depth = .char ',' :: g ∧ IsGap g := by
  cases indent with
  | none => exact ⟨[.char ' '], rfl, by simp [IsGap]⟩
  | some t => exact ⟨newline (some t) depth, rfl, isGap_newline h _⟩

theorem endsNumber_newline (indent : Option Text) (depth : Nat) {c : CodePoint} (hc : c = ']' ∨ c = '}') (r : Text) :
    EndsNumber (newline indent depth ++ c :: r) := by
  intro a ha
  cases indent with
  | none =>
    obtain rfl : c = a := Option.some.inj ha
    rcases hc with rfl | rfl <;> simp
  | some t =>
    obtain rfl : .char '\n' = a := Option.some.inj ha
    simp

end Gaps

/-! ## Numbers -/

section Numbers

variable {r : Text}

theorem EndsNumber.not_isDigit (h : EndsNumber r) : ∀ c ∈ r.head?, c.isDigit = false := by
  intro c hc
  rcases h c hc with rfl | rfl | rfl | rfl <;> rfl

theorem fraction?_of_endsNumber (h : EndsNumber r) : fraction? r = some (none, r) := by
  unfold fraction?
  split
  · exact absurd (h '.' rfl) (by decide)
  · rfl

theorem exponent?_of_endsNumber (h : EndsNumber r) : exponent? r = some (none, r) := by
  cases r with
  | nil => rfl
  | cons c r =>
    have hc : ¬ (c = 'e' ∨ c = 'E') := by
      rcases h c rfl with rfl | rfl | rfl | rfl <;> decide
    exact if_neg hc

/-- A numeral of more than one digit does not begin with zero. -/
theorem no_zero_in_front (n : Nat) : ¬ ((Numeral.ofNat n).head? = some (.char '0') ∧ (Numeral.ofNat n).length ≠ 1) := by
  rintro ⟨hhead, hlength⟩
  obtain ⟨ds, hds⟩ : ∃ ds, Numeral.ofNat n = .char '0' :: ds := List.head?_eq_some_iff.1 hhead
  have hdigits : ∀ c ∈ ds, c.isDigit = true := fun c hc =>
    Numeral.forall_isDigit_ofNat n c (hds ▸ List.mem_cons_of_mem _ hc)
  have hvalue : Numeral.value ds = n := by
    have hzero := Numeral.value_zeros_append 1 ds
    rw [← Numeral.value_ofNat n, hds]
    exact hzero.symm
  have hlt := Numeral.value_lt hdigits
  rw [hvalue] at hlt
  have hpos : 0 < ds.length := by
    rw [hds, List.length_cons] at hlength
    omega
  have hle := (Numeral.length_ofNat_le hpos).2 hlt
  rw [hds, List.length_cons] at hle
  omega

theorem readNumber?_render (n : Int) (h : EndsNumber r) : readNumber? (Numeral.ofInt n ++ r) = some (int n, r) := by
  have hspan : ∀ k, (Numeral.ofNat k ++ r).span CodePoint.isDigit = (Numeral.ofNat k, r) := fun k =>
    Text.span_append (Numeral.forall_isDigit_ofNat k) h.not_isDigit
  have hwhole : ∀ k, ¬ ((Numeral.ofNat k).isEmpty = true ∨
      ((Numeral.ofNat k).head? = some (.char '0') ∧ (Numeral.ofNat k).length ≠ 1)) := fun k =>
    not_or.2 ⟨by simp [Numeral.ofNat_ne_nil], no_zero_in_front k⟩
  cases n with
  | ofNat k =>
    rw [Int.ofNat_eq_natCast, Numeral.ofInt_natCast]
    unfold readNumber?
    dsimp only
    split
    · next heq =>
      obtain ⟨a, ds, hds, ha⟩ := Numeral.exists_cons_ofNat k
      rw [hds] at heq
      exact absurd (List.cons.inj heq).1 (Numeral.ne_of_isDigit ha rfl)
    · dsimp only
      rw [hspan]
      dsimp only
      rw [if_neg (hwhole k), fraction?_of_endsNumber h]
      simp [exponent?_of_endsNumber h, Numeral.value_ofNat]
  | negSucc k =>
    rw [Numeral.ofInt_negSucc, List.cons_append]
    unfold readNumber?
    dsimp only
    split
    · next heq =>
      obtain rfl := (List.cons.inj heq).2
      dsimp only
      rw [hspan]
      dsimp only
      rw [if_neg (hwhole _), fraction?_of_endsNumber h]
      simp [exponent?_of_endsNumber h, Numeral.value_ofNat, Int.negSucc_eq]
    · next hne => exact absurd rfl (hne _)

theorem exists_cons_ofInt (n : Int) : ∃ c t, Numeral.ofInt n = c :: t ∧ (c.isDigit = true ∨ c = '-') := by
  cases n with
  | ofNat k =>
    obtain ⟨c, ds, hds, hc⟩ := Numeral.exists_cons_ofNat k
    exact ⟨c, ds, hds, .inl hc⟩
  | negSucc k => exact ⟨_, _, rfl, .inr rfl⟩

theorem readWord?_ofInt (n : Int) (r : Text) : readWord? (Numeral.ofInt n ++ r) = none := by
  have hne : ∀ {a c : CodePoint}, a.isDigit = true → c.isDigit = false → ¬ c = a := fun ha hc =>
    (Numeral.ne_of_isDigit ha hc).symm
  cases n with
  | ofNat k =>
    obtain ⟨a, ds, hds, ha⟩ := Numeral.exists_cons_ofNat k
    rw [Int.ofNat_eq_natCast, Numeral.ofInt_natCast, hds]
    simp [readWord?, words, Text.of, Text.strip?, hne ha (c := 'n') rfl, hne ha (c := 't') rfl, hne ha (c := 'f') rfl,
      hne ha (c := 'N') rfl, hne ha (c := 'I') rfl, hne ha (c := '-') rfl]
  | negSucc k =>
    obtain ⟨a, ds, hds, ha⟩ := Numeral.exists_cons_ofNat (k + 1)
    rw [Numeral.ofInt_negSucc, hds]
    simp [readWord?, words, Text.of, Text.strip?, hne ha (c := 'I') rfl]

end Numbers

/-! ## The first character -/

/-- The first character of a value is not blank and closes no list. -/
def IsStart (c : CodePoint) : Prop := (c = ' ' || c = '\t' || c = '\n' || c = '\r') = false ∧ c ≠ ']'

theorem isStart_of_number {c : CodePoint} (h : c.isDigit = true ∨ c = '-') : IsStart c := by
  rcases h with h | rfl
  · have hne : ∀ d, d.isDigit = false → ¬ c = d := fun d hd => Numeral.ne_of_isDigit h hd
    exact ⟨by simp [hne ' ' rfl, hne '\t' rfl, hne '\n' rfl, hne '\r' rfl], hne ']' rfl⟩
  · exact ⟨rfl, by decide⟩

theorem skip_of_isStart {c : CodePoint} (h : IsStart c) (t : Text) : skip (c :: t) = c :: t :=
  List.dropWhile_cons_of_neg (by simp [h.1])

theorem exists_start {j : Json} (h : Exact j) (indent : Option Text) (depth : Nat) :
    ∃ c t, renderAt indent depth j = c :: t ∧ IsStart c := by
  cases h with
  | null => exact ⟨_, _, rfl, rfl, by decide⟩
  | bool b => cases b <;> exact ⟨_, _, rfl, rfl, by decide⟩
  | int n =>
    obtain ⟨c, t, hint, hc⟩ := exists_cons_ofInt n
    exact ⟨c, t, hint, isStart_of_number hc⟩
  | text t => exact ⟨_, _, rfl, rfl, by decide⟩
  | @list xs items => cases xs <;> exact ⟨_, _, rfl, rfl, by decide⟩
  | @object fs names values => cases fs <;> exact ⟨_, _, rfl, rfl, by decide⟩

theorem exists_succ_fuel {j : Json} {indent : Option Text} {depth fuel : Nat} (h : Exact j)
    (hfuel : (renderAt indent depth j).length ≤ fuel) : ∃ k, fuel = k + 1 := by
  obtain ⟨c, t, heq, _⟩ := exists_start h indent depth
  rw [heq, List.length_cons] at hfuel
  exact Nat.exists_eq_add_one.2 (by omega)

/-! ## Values -/

/-- The joined value is read from what is written of it, wherever that stands. -/
def ComesBack (indent : Option Text) (j : Json) : Prop :=
  ∀ depth fuel r, (renderAt indent depth j).length ≤ fuel → EndsNumber r →
    readValue? fuel (renderAt indent depth j ++ r) = some (j.joined, r)

section Values

variable {indent : Option Text} {depth fuel : Nat} {g r close : Text}

theorem readValue?_word {w : Text} {j : Json} (hw : (w, j) ∈ words.take 3) :
    readValue? (fuel + 1) (w ++ r) = some (j, r) := by
  simp only [words, List.take, List.mem_cons, Prod.mk.injEq, List.not_mem_nil, or_false] at hw
  rcases hw with ⟨rfl, rfl⟩ | ⟨rfl, rfl⟩ | ⟨rfl, rfl⟩ <;>
    simp [readValue?, skip, readWord?, words, Text.of, Text.strip?]

theorem readValue?_int (n : Int) (h : EndsNumber r) : readValue? (fuel + 1) (Numeral.ofInt n ++ r) = some (int n, r) := by
  have hword := readWord?_ofInt n r
  have hnumber := readNumber?_render n h
  obtain ⟨c, t, hint, hc⟩ := exists_cons_ofInt n
  have hother : ∀ d : CodePoint, d.isDigit = false → d ≠ '-' → c ≠ d := by
    intro d hd hminus
    rcases hc with hc | rfl
    · exact Numeral.ne_of_isDigit hc hd
    · exact hminus.symm
  rw [hint, List.cons_append] at hword hnumber ⊢
  rw [readValue?, skip_of_isStart (isStart_of_number hc)]
  split
  · next heq => exact absurd (List.cons.inj heq).1 (hother '"' rfl (by decide))
  · next heq => exact absurd (List.cons.inj heq).1 (hother '[' rfl (by decide))
  · next heq => exact absurd (List.cons.inj heq).1 (hother '{' rfl (by decide))
  · rw [hword]
    exact hnumber

theorem readValue?_text (t : Text) : readValue? (fuel + 1) (quote t ++ r) = some (text t.joined, r) := by
  have hopen : skip (quote t ++ r) = .char '"' :: (t.flatMap escape ++ .char '"' :: r) := by simp [quote, skip]
  rw [readValue?, hopen]
  simp only [readText?_quote, Option.map_some]

theorem readItems?_render (hindent : IsBlank indent) {x : Json} {xs : List Json} (h : ∀ y ∈ x :: xs, ComesBack indent y)
    (hfuel : (renderAt indent depth x).length + (renderItems indent depth xs).length < fuel) (hends : EndsNumber close)
    (hclose : skip close = .char ']' :: r) :
    readItems? fuel (renderAt indent depth x ++ (renderItems indent depth xs ++ close)) = some ((x :: xs).map joined, r) := by
  induction xs generalizing x fuel with
  | nil =>
    obtain ⟨fuel, rfl⟩ := Nat.exists_eq_add_one.2 (Nat.zero_lt_of_lt hfuel)
    have hx := h x List.mem_cons_self depth fuel close (by omega) hends
    rw [readItems?, renderItems, List.nil_append, hx]
    simp [hclose]
  | cons y ys ih =>
    obtain ⟨fuel, rfl⟩ := Nat.exists_eq_add_one.2 (Nat.zero_lt_of_lt hfuel)
    obtain ⟨g, hcomma, hg⟩ := comma_eq hindent depth
    simp only [renderItems, hcomma, List.length_append, List.length_cons] at hfuel
    have hx := h x List.mem_cons_self depth fuel
      (',' :: (g ++ (renderAt indent depth y ++ (renderItems indent depth ys ++ close)))) (by omega) (by simp [EndsNumber])
    have hys := ih (fun z hz => h z (List.mem_cons_of_mem _ hz))
      (show (renderAt indent depth y).length + (renderItems indent depth ys).length < fuel by omega)
    have hskip : ∀ t, skip (',' :: t) = .char ',' :: t := fun t => rfl
    simp only [renderItems, hcomma, List.append_assoc, List.cons_append]
    rw [readItems?, hx]
    simp [hskip, readItems?_gap hg, hys]

/-- A field behind others: its name, and then its value and what follows. -/
theorem readFields?_field (fuel : Nat) (acc : List (Text × Json)) (k t : Text) :
    readFields? (fuel + 1) acc (quote k ++ (Text.of ": " ++ t)) = (readValue? fuel t).bind fun (v, t) =>
      match skip t with
      | ',' :: t => readFields? fuel (setField acc k.joined v) t
      | '}' :: t => some (setField acc k.joined v, t)
      | _ => none := by
  have hspace : IsGap [.char ' '] := by simp [IsGap]
  have hopen : skip (quote k ++ (Text.of ": " ++ t)) =
      .char '"' :: (k.flatMap escape ++ .char '"' :: (Text.of ": " ++ t)) := by
    simp [quote, skip]
  have hcolon : skip (Text.of ": " ++ t) = .char ':' :: ([.char ' '] ++ t) := by simp [Text.of, skip]
  rw [readFields?, hopen]
  simp only [readText?_quote, hcolon, readValue?_gap hspace, Option.bind_eq_bind, Option.bind_some]
  rfl

/-- Fields come back if their values do, behind other fields. -/
theorem readFields?_render (hindent : IsBlank indent) {k : Text} {v : Json} {fs : List (Text × Json)}
    (acc : List (Text × Json)) (h : ∀ f ∈ (k, v) :: fs, ComesBack indent f.2)
    (hfuel : (renderAt indent depth v).length + (renderFields indent depth fs).length < fuel) (hends : EndsNumber close)
    (hclose : skip close = .char '}' :: r) :
    readFields? fuel acc (quote k ++ (Text.of ": " ++ (renderAt indent depth v ++ (renderFields indent depth fs ++ close)))) =
      some (joinedFields acc ((k, v) :: fs), r) := by
  induction fs generalizing k v acc fuel with
  | nil =>
    obtain ⟨fuel, rfl⟩ := Nat.exists_eq_add_one.2 (Nat.zero_lt_of_lt hfuel)
    have hv := h (k, v) List.mem_cons_self depth fuel close (by dsimp only; omega) hends
    rw [readFields?_field, renderFields, List.nil_append, hv, Option.bind_some]
    simp [hclose, joinedFields]
  | cons f fs ih =>
    obtain ⟨l, w⟩ := f
    obtain ⟨fuel, rfl⟩ := Nat.exists_eq_add_one.2 (Nat.zero_lt_of_lt hfuel)
    obtain ⟨g, hcomma, hg⟩ := comma_eq hindent depth
    simp only [renderFields, hcomma, List.length_append, List.length_cons] at hfuel
    have hv := h (k, v) List.mem_cons_self depth fuel
      (',' :: (g ++ (quote l ++ (Text.of ": " ++ (renderAt indent depth w ++ (renderFields indent depth fs ++ close))))))
      (by dsimp only; omega) (by simp [EndsNumber])
    have hfs := ih (setField acc k.joined v.joined) (fun f hf => h f (List.mem_cons_of_mem _ hf))
      (show (renderAt indent depth w).length + (renderFields indent depth fs).length < fuel by omega)
    have hskip : ∀ t, skip (',' :: t) = .char ',' :: t := fun t => rfl
    simp only [renderFields, hcomma, List.append_assoc, List.cons_append] at hv ⊢
    rw [readFields?_field, hv, Option.bind_some]
    simp [hskip, readFields?_gap hg, hfs, joinedFields]

/-- The items of a list stand behind its bracket. -/
theorem readValue?_list {c : CodePoint} (hg : IsGap g) (hc : IsStart c) (fuel : Nat) (t : Text) :
    readValue? (fuel + 1) ('[' :: (g ++ c :: t)) = (readItems? fuel (c :: t)).map fun (xs, r) => (list xs, r) := by
  have hopen : ∀ t, skip ('[' :: t) = .char '[' :: t := fun t => rfl
  have hskip : skip (g ++ c :: t) = c :: t := (skip_gap hg _).trans (skip_of_isStart hc t)
  rw [readValue?, hopen]
  simp only [hskip]
  split
  · next heq => exact absurd (List.cons.inj heq).1 hc.2
  · rfl

/-- The fields of an object stand behind its brace, the first one at once. -/
theorem readValue?_object (hg : IsGap g) (fuel : Nat) (k t : Text) :
    readValue? (fuel + 1) ('{' :: (g ++ (quote k ++ t))) =
      (readFields? fuel [] (quote k ++ t)).map fun (fs, r) => (object fs, r) := by
  have hopen : ∀ t, skip ('{' :: t) = .char '{' :: t := fun t => rfl
  have hskip : skip (g ++ (quote k ++ t)) = quote k ++ t := skip_gap hg _
  rw [readValue?, hopen]
  simp only [hskip]
  split
  · next heq => exact absurd (List.cons.inj heq).1 (by decide)
  · rfl

end Values

def IsContainer : Json → Prop
  | list _ | object _ => True
  | null | bool _ | int _ | real _ | text _ => False

/-- A value without parts comes back, whatever the indent is. -/
theorem comesBack_of_not_container {j : Json} (h : Exact j) (hj : ¬ j.IsContainer) (indent : Option Text) :
    ComesBack indent j := by
  intro depth fuel r hfuel hends
  obtain ⟨fuel, rfl⟩ := exists_succ_fuel h hfuel
  cases h with
  | null => exact readValue?_word (w := .of "null") (by simp [words, joined])
  | bool b =>
    cases b with
    | true => exact readValue?_word (w := .of "true") (by simp [words, joined])
    | false => exact readValue?_word (w := .of "false") (by simp [words, joined])
  | int n => exact readValue?_int n hends
  | text t => exact readValue?_text t
  | list items => exact absurd trivial hj
  | object names values => exact absurd trivial hj

/-- **A value comes back.** -/
theorem comesBack {j : Json} (h : Exact j) {indent : Option Text} (hindent : IsBlank indent) : ComesBack indent j := by
  induction h with
  | null => exact comesBack_of_not_container .null id indent
  | bool b => exact comesBack_of_not_container (.bool b) id indent
  | int n => exact comesBack_of_not_container (.int n) id indent
  | text t => exact comesBack_of_not_container (.text t) id indent
  | @list xs items ih =>
    intro depth fuel r hfuel hends
    obtain ⟨fuel, rfl⟩ := exists_succ_fuel (.list items) hfuel
    cases xs with
    | nil => rfl
    | cons x xs =>
      obtain ⟨c, t, hstart, hc⟩ := exists_start (items x List.mem_cons_self) indent (depth + 1)
      have hgap := isGap_newline hindent (depth + 1)
      have hclose := skip_gap (isGap_newline hindent depth) (']' :: r)
      have hlength : (renderAt indent (depth + 1) x).length + (renderItems indent (depth + 1) xs).length < fuel := by
        simp [renderAt] at hfuel
        omega
      have hread := readItems?_render hindent ih hlength (endsNumber_newline indent depth (.inl rfl) r) hclose
      rw [hstart, List.cons_append] at hread
      simp only [renderAt, hstart, List.cons_append, List.append_assoc, List.nil_append]
      rw [readValue?_list hgap hc, hread]
      rw [Option.map_some, joined_list]
  | @object fs names values ih =>
    intro depth fuel r hfuel hends
    obtain ⟨fuel, rfl⟩ := exists_succ_fuel (.object names values) hfuel
    cases fs with
    | nil => rfl
    | cons f fs =>
      obtain ⟨k, v⟩ := f
      have hgap := isGap_newline hindent (depth + 1)
      have hclose := skip_gap (isGap_newline hindent depth) ('}' :: r)
      have hlength : (renderAt indent (depth + 1) v).length + (renderFields indent (depth + 1) fs).length < fuel := by
        simp [renderAt] at hfuel
        omega
      have hread := readFields?_render hindent [] ih hlength (endsNumber_newline indent depth (.inr rfl) r) hclose
      simp only [renderAt, List.cons_append, List.append_assoc, List.nil_append]
      rw [readValue?_object hgap, hread]
      rfl

/-- A value is read from what is written of it, also before blank characters. -/
theorem read?_render_append {j : Json} (h : Exact j) {indent : Option Text} (hindent : IsBlank indent) {g : Text}
    (hg : IsGap g) (hends : EndsNumber g) : read? (render indent j ++ g) = some j.joined := by
  have hread := comesBack h hindent 0 (2 * (render indent j ++ g).length + 2) g
    (by rw [List.length_append]; unfold render; omega) hends
  have hskip : skip g = [] := by
    rw [← List.append_nil g, skip_gap hg]
    rfl
  unfold read?
  rw [render] at hread ⊢
  rw [hread]
  simp [hskip]

/-- **What is read of a written value** is the value with its pairs of surrogates joined, for any indent of blank
characters. -/
theorem read?_render {j : Json} (h : Exact j) {indent : Option Text} (hindent : IsBlank indent) :
    read? (render indent j) = some j.joined := by
  have hread := read?_render_append h hindent (g := []) (by simp [IsGap]) (by simp [EndsNumber])
  rwa [List.append_nil] at hread

/-! ## Long numbers -/

theorem areShort_eq (xs : List Json) : areShort xs = xs.all isShort := by
  induction xs with
  | nil => rfl
  | cons x xs ih => rw [areShort, ih, List.all_cons]

theorem fieldsAreShort_eq (fs : List (Text × Json)) : fieldsAreShort fs = fs.all fun f => f.2.isShort := by
  induction fs with
  | nil => rfl
  | cons f fs ih => rw [fieldsAreShort, ih, List.all_cons]

end Json

end RequestRules
