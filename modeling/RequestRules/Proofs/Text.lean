import Mathlib.Data.List.Chain
import Mathlib.Data.List.TakeDrop
import Mathlib.Data.List.TakeWhile
import RequestRules.Text

/-!
# Cutting and joining texts

What the operations on texts give back of a text that was put together:

* `cut?_append`, `cutLast?_append`, `run?_append` — a text is cut where its parts were joined, and `cut?_eq_some`,
  `cutLast?_eq_some`, `run?_eq_some` — nowhere else;
* `split_join` — parts without the separator come back, and `not_mem_split` — there are no others; `join_split` — the
  parts give the text back;
* `replace_eq_self`, `replace_append` — replacing passes over what does not hold the pattern, and goes on behind a
  character that no occurrence runs over; `replace_flatMap` — pairs that were put in are taken out again;
  `replace_eq_nil_iff` — when nothing is left.

`NoPair p q t` says that nowhere in `t` a character of `p` stands directly before one of `q`.
-/

namespace RequestRules.Text

/-- Nowhere in the text does a character of `p` stand directly before one of `q`. -/
def NoPair (p q : CodePoint → Bool) (t : Text) : Prop := t.IsChain fun a b => ¬ (p a = true ∧ q b = true)

instance (p q : CodePoint → Bool) (t : Text) : Decidable (NoPair p q t) := by
  unfold NoPair; infer_instance

theorem forall_mem_of_all {p : CodePoint → Prop} [DecidablePred p] {t : Text} (h : (t.all fun c => p c) = true) :
    ∀ c ∈ t, p c := by
  simpa using h

section NoPair

variable {p q : CodePoint → Bool} {a b : CodePoint} {s t : Text}

theorem NoPair.tail (h : NoPair p q (a :: t)) : NoPair p q t := List.IsChain.tail h

theorem noPair_cons_cons : NoPair p q (a :: b :: t) ↔ ¬ (p a = true ∧ q b = true) ∧ NoPair p q (b :: t) :=
  List.isChain_cons_cons

/-- Characters that begin no pair can be put in front. -/
theorem NoPair.append_left (hs : ∀ c ∈ s, p c = false) (ht : NoPair p q t) : NoPair p q (s ++ t) := by
  induction s with
  | nil => exact ht
  | cons c s ih =>
    have hc : p c = false := hs c (by simp)
    have hst := ih fun c' hc' => hs c' (List.mem_cons_of_mem _ hc')
    rw [List.cons_append]
    cases hst' : s ++ t with
    | nil => exact List.IsChain.singleton c
    | cons d r => exact noPair_cons_cons.2 ⟨by simp [hc], hst' ▸ hst⟩

end NoPair

/-! ## Cutting -/

section Cut

variable {c : CodePoint} {l r t : Text}

theorem cut?_append (h : c ∉ l) : cut? c (l ++ c :: r) = some (l, r) := by
  induction l with
  | nil => simp [cut?]
  | cons a l ih =>
    simp only [List.mem_cons, not_or] at h
    obtain ⟨ha, hl⟩ := h
    have hac : ¬ a = c := fun e => ha e.symm
    simp [cut?, hac, ih hl]

theorem cut?_eq_none (h : c ∉ t) : cut? c t = none := by
  induction t with
  | nil => rfl
  | cons a t ih =>
    simp only [List.mem_cons, not_or] at h
    obtain ⟨ha, ht⟩ := h
    have hac : ¬ a = c := fun e => ha e.symm
    simp [cut?, hac, ih ht]

theorem cut?_eq_some (h : cut? c t = some (l, r)) : t = l ++ c :: r ∧ c ∉ l := by
  induction t generalizing l r with
  | nil => exact absurd h (by simp [cut?])
  | cons a t ih =>
    unfold cut? at h
    by_cases ha : a = c
    · rw [if_pos ha] at h
      cases h
      exact ⟨by rw [ha]; rfl, by simp⟩
    · rw [if_neg ha] at h
      obtain ⟨⟨l', r'⟩, hcut, heq⟩ := Option.map_eq_some_iff.1 h
      cases heq
      obtain ⟨rfl, hl⟩ := ih hcut
      refine ⟨rfl, ?_⟩
      rw [List.mem_cons, not_or]
      exact ⟨Ne.symm ha, hl⟩

theorem cutLast?_eq_none : cutLast? c t = none ↔ c ∉ t := by
  induction t with
  | nil => simp [cutLast?]
  | cons a t ih =>
    unfold cutLast?
    cases hcut : cutLast? c t with
    | some x =>
      have hmem : c ∈ t := by
        by_contra h
        rw [ih.2 h] at hcut
        exact absurd hcut (by simp)
      simp [hmem]
    | none => simp [ih.1 hcut, eq_comm]

theorem cutLast?_append (h : c ∉ r) (l : Text) : cutLast? c (l ++ c :: r) = some (l, r) := by
  induction l with
  | nil => simp [cutLast?, cutLast?_eq_none.2 h]
  | cons a l ih => simp [cutLast?, ih]

theorem cutLast?_eq_some (h : cutLast? c t = some (l, r)) : t = l ++ c :: r ∧ c ∉ r := by
  induction t generalizing l with
  | nil => exact absurd h (by simp [cutLast?])
  | cons a t ih =>
    unfold cutLast? at h
    split at h
    · next l' r' hcut =>
      cases h
      obtain ⟨rfl, hr⟩ := ih hcut
      exact ⟨rfl, hr⟩
    · next hcut =>
      split_ifs at h with ha
      cases h
      exact ⟨by rw [ha]; rfl, cutLast?_eq_none.1 hcut⟩

theorem strip?_append (p t : Text) : strip? (p ++ t) p = some t := by
  induction p with
  | nil => cases t <;> rfl
  | cons a p ih => simpa [strip?] using ih

theorem strip?_eq_none {p t : Text} (h : ¬ p <+: t) : strip? t p = none := by
  induction p generalizing t with
  | nil => exact absurd List.nil_prefix h
  | cons a p ih =>
    cases t with
    | nil => rfl
    | cons b t =>
      simp only [strip?]
      by_cases hab : a = b
      · subst hab
        rw [if_pos rfl]
        exact ih fun hp => h (List.prefix_cons_inj a |>.2 hp)
      · rw [if_neg hab]

theorem strip?_eq_some {p t r : Text} : strip? t p = some r ↔ t = p ++ r := by
  constructor
  · intro h
    by_cases hp : p <+: t
    · obtain ⟨s, rfl⟩ := hp
      rw [strip?_append] at h
      cases h
      rfl
    · rw [strip?_eq_none hp] at h
      exact absurd h (by simp)
  · rintro rfl
    exact strip?_append p r

theorem strip?_cons_self (c : CodePoint) (t : Text) : strip? (c :: t) [c] = some t := strip?_append [c] t

theorem strip?_of_head?_ne (h : t.head? ≠ some c) : strip? t [c] = none := by
  refine strip?_eq_none ?_
  rintro ⟨r, rfl⟩
  exact h rfl

end Cut

section Run

variable {p : CodePoint → Bool} {c : CodePoint} {l r : Text}

theorem span_append (hl : ∀ a ∈ l, p a = true) (hr : ∀ a ∈ r.head?, p a = false) :
    (l ++ r).span p = (l, r) := by
  rw [List.span_eq_takeWhile_dropWhile, List.takeWhile_append_of_pos hl, List.dropWhile_append_of_pos hl]
  cases r with
  | nil => simp
  | cons a r =>
    have ha : p a = false := hr a rfl
    simp [ha]

theorem run?_of_dropWhile {t : Text} {a : CodePoint} (h : t.dropWhile p = a :: r) :
    run? p c t = if a = c then some (t.takeWhile p, r) else none := by
  unfold run?
  rw [List.span_eq_takeWhile_dropWhile, h]

theorem run?_eq_none {t : Text} (h : t.dropWhile p = []) : run? p c t = none := by
  unfold run?
  rw [List.span_eq_takeWhile_dropWhile, h]

theorem run?_append (hl : ∀ a ∈ l, p a = true) (hc : p c = false) : run? p c (l ++ c :: r) = some (l, r) := by
  unfold run?
  rw [span_append hl (by simpa using hc)]
  simp

theorem run?_eq_some {t : Text} (h : run? p c t = some (l, r)) : t = l ++ c :: r ∧ ∀ a ∈ l, p a = true := by
  unfold run? at h
  rw [List.span_eq_takeWhile_dropWhile] at h
  have hall : ∀ a ∈ t.takeWhile p, p a = true := fun a ha => List.mem_takeWhile_imp ha
  have hjoin : t.takeWhile p ++ t.dropWhile p = t := List.takeWhile_append_dropWhile
  cases hd : t.dropWhile p with
  | nil =>
    rw [hd] at h
    exact absurd h (by simp)
  | cons a rest =>
    simp only [hd] at h
    by_cases ha : a = c
    · rw [if_pos ha] at h
      cases h
      exact ⟨by rw [← ha, ← hd, hjoin], hall⟩
    · rw [if_neg ha] at h
      exact absurd h (by simp)

end Run

/-! ## Splitting and joining -/

section Split

variable {c : CodePoint}

theorem split_of_not_mem {t : Text} (h : c ∉ t) : split c t = [t] := by
  induction t with
  | nil => rfl
  | cons a t ih =>
    simp only [List.mem_cons, not_or] at h
    obtain ⟨ha, ht⟩ := h
    have hac : ¬ a = c := fun e => ha e.symm
    simp [split, hac, ih ht]

theorem split_append_cons {l : Text} (h : c ∉ l) (r : Text) : split c (l ++ c :: r) = l :: split c r := by
  induction l with
  | nil => simp [split]
  | cons a l ih =>
    simp only [List.mem_cons, not_or] at h
    obtain ⟨ha, hl⟩ := h
    have hac : ¬ a = c := fun e => ha e.symm
    simp [split, hac, ih hl]

theorem split_ne_nil (c : CodePoint) (t : Text) : split c t ≠ [] := by
  cases t with
  | nil => simp [split]
  | cons a t =>
    unfold split
    split_ifs
    · simp
    · split <;> simp

theorem split_append (l r : Text) : split c (l ++ c :: r) = split c l ++ split c r := by
  induction l with
  | nil => simp [split]
  | cons a l ih =>
    by_cases ha : a = c
    · simp [split, ha, ih]
    · obtain ⟨p, ps, hl⟩ := List.exists_cons_of_ne_nil (split_ne_nil c l)
      simp [split, ha, ih, hl]

theorem not_mem_split {t p : Text} (h : p ∈ split c t) : c ∉ p := by
  induction t generalizing p with
  | nil =>
    rw [List.mem_singleton.1 h]
    exact List.not_mem_nil
  | cons a t ih =>
    unfold split at h
    by_cases ha : a = c
    · rw [if_pos ha] at h
      rcases List.mem_cons.1 h with rfl | h
      · exact List.not_mem_nil
      · exact ih h
    · rw [if_neg ha] at h
      have hcons : ∀ q, c ∉ q → c ∉ a :: q := by
        intro q hq
        rw [List.mem_cons, not_or]
        exact ⟨Ne.symm ha, hq⟩
      cases hs : split c t with
      | nil =>
        rw [hs] at h
        rw [List.mem_singleton.1 h]
        exact hcons [] List.not_mem_nil
      | cons q qs =>
        rw [hs] at h ih
        rcases List.mem_cons.1 h with rfl | h
        · exact hcons q (ih List.mem_cons_self)
        · exact ih (List.mem_cons_of_mem _ h)

theorem join_cons_cons (sep p q : Text) (ps : List Text) :
    join sep (p :: q :: ps) = p ++ sep ++ join sep (q :: ps) := rfl

theorem split_join {ps : List Text} (hne : ps ≠ []) (h : ∀ p ∈ ps, c ∉ p) : split c (join [c] ps) = ps := by
  induction ps with
  | nil => exact absurd rfl hne
  | cons p ps ih =>
    have hp : c ∉ p := h p (by simp)
    cases ps with
    | nil => exact split_of_not_mem hp
    | cons q ps =>
      rw [join_cons_cons, List.append_assoc, List.singleton_append, split_append_cons hp,
        ih (by simp) fun p' hp' => h p' (List.mem_cons_of_mem _ hp')]

/-- The parts of a text give it back. -/
theorem join_split (c : CodePoint) (t : Text) : join [c] (split c t) = t := by
  induction t with
  | nil => rfl
  | cons a t ih =>
    obtain ⟨p, ps, hs⟩ := List.exists_cons_of_ne_nil (split_ne_nil c t)
    rw [hs] at ih
    unfold split
    rw [hs]
    split_ifs with ha
    · rw [join_cons_cons, ih, ha]
      rfl
    · cases ps with
      | nil => exact congrArg (a :: ·) ih
      | cons q ps =>
        rw [join_cons_cons] at ih ⊢
        exact congrArg (a :: ·) ih

theorem mem_join {sep : Text} {ps : List Text} {a : CodePoint} (h : a ∈ join sep ps) :
    a ∈ sep ∨ ∃ p ∈ ps, a ∈ p := by
  induction ps with
  | nil => simp [join] at h
  | cons p ps ih =>
    cases ps with
    | nil => exact Or.inr ⟨p, by simp, h⟩
    | cons q ps =>
      rw [join_cons_cons] at h
      simp only [List.mem_append] at h
      rcases h with (h | h) | h
      · exact Or.inr ⟨p, by simp, h⟩
      · exact Or.inl h
      · rcases ih h with h | ⟨p', hp', h⟩
        · exact Or.inl h
        · exact Or.inr ⟨p', List.mem_cons_of_mem _ hp', h⟩

end Split

/-! ## Replacing pairs of characters -/

section Replace

variable {a b : CodePoint} {r : Text}

theorem replaceFrom_pair (t : Text) : replaceFrom a [b] r 0 (a :: b :: t) = r ++ replaceFrom a [b] r 0 t := by
  simp [replaceFrom]

theorem replaceFrom_cons {c : CodePoint} {t : Text} (h : ¬ (c = a ∧ t.head? = some b)) :
    replaceFrom a [b] r 0 (c :: t) = c :: replaceFrom a [b] r 0 t := by
  have hp : ¬ (c = a ∧ [b].isPrefixOf t = true) := by
    rintro ⟨hc, hp⟩
    refine h ⟨hc, ?_⟩
    cases t with
    | nil => simp at hp
    | cons d t =>
      simp only [List.isPrefixOf_cons_cons, List.isPrefixOf_nil_left, Bool.and_true, beq_iff_eq] at hp
      simp [hp]
  rw [replaceFrom, if_neg hp]

/-- A text in which each `b` is written as a pair and what the replaced pair lacks comes back. -/
theorem replace_flatMap (hab : a ≠ b) {s : Text} (h : r ++ s = [b]) (t : Text) :
    replace (t.flatMap fun c => if c = b then a :: b :: s else [c]) [a, b] r = t := by
  set written := fun t : Text => t.flatMap fun c => if c = b then a :: b :: s else [c] with hwritten
  show replaceFrom a [b] r 0 (written t) = t
  induction t with
  | nil => rfl
  | cons c t ih =>
    by_cases hc : c = b
    · have hcons : written (c :: t) = a :: b :: (s ++ written t) := by simp [hwritten, hc]
      rw [hcons, replaceFrom_pair]
      rcases List.append_eq_singleton_iff.1 h with ⟨rfl, rfl⟩ | ⟨rfl, rfl⟩
      · rw [List.nil_append, List.singleton_append, replaceFrom_cons fun h => hab h.1.symm, ih, hc]
      · rw [List.nil_append, List.singleton_append, ih, hc]
    · have hcons : written (c :: t) = c :: written t := by simp [hwritten, hc]
      have hhead : (written t).head? ≠ some b := by
        cases t with
        | nil => simp [hwritten]
        | cons d t => by_cases hd : d = b <;> simp [hwritten, hd, hab]
      rw [hcons, replaceFrom_cons fun h => hhead h.2, ih]

theorem replace_eq_self {t : Text} (h : NoPair (· == a) (· == b) t) : t.replace [a, b] r = t := by
  show replaceFrom a [b] r 0 t = t
  induction t with
  | nil => rfl
  | cons c t ih =>
    have hc : ¬ (c = a ∧ t.head? = some b) := by
      rintro ⟨rfl, hd⟩
      obtain ⟨t', rfl⟩ : ∃ t', t = b :: t' := List.head?_eq_some_iff.1 hd
      exact (noPair_cons_cons.1 h).1 (by simp)
    rw [replaceFrom_cons hc, ih h.tail]

/-- No occurrence runs over a character that does not end one, so replacing begins again there. -/
theorem replace_append {c : CodePoint} (hc : c ≠ b) (s t : Text) :
    replace (s ++ c :: t) [a, b] r = replace s [a, b] r ++ replace (c :: t) [a, b] r := by
  show replaceFrom a [b] r 0 (s ++ c :: t) = replaceFrom a [b] r 0 s ++ replaceFrom a [b] r 0 (c :: t)
  induction s using List.twoStepInduction with
  | nil => rfl
  | singleton d =>
    have h1 : replaceFrom a [b] r 0 (d :: c :: t) = d :: replaceFrom a [b] r 0 (c :: t) :=
      replaceFrom_cons (by simp [hc])
    have h2 : replaceFrom a [b] r 0 [d] = [d] := replaceFrom_cons (by simp)
    rw [List.singleton_append, h1, h2, List.singleton_append]
  | cons_cons d e s ih1 ih2 =>
    by_cases h : d = a ∧ e = b
    · obtain ⟨rfl, rfl⟩ := h
      rw [List.cons_append, List.cons_append, replaceFrom_pair, replaceFrom_pair, ih1, List.append_assoc]
    · have h1 : replaceFrom a [b] r 0 (d :: e :: s) = d :: replaceFrom a [b] r 0 (e :: s) :=
        replaceFrom_cons (by simpa using h)
      have h2 : replaceFrom a [b] r 0 (d :: (e :: s ++ c :: t)) = d :: replaceFrom a [b] r 0 (e :: s ++ c :: t) :=
        replaceFrom_cons (by simpa using h)
      rw [List.cons_append, h2, h1, ih2 e, List.cons_append]

theorem replaceFrom_sublist (k : Nat) (t : Text) : (replaceFrom a [b] [] k t).Sublist t := by
  induction t generalizing k with
  | nil => cases k <;> exact List.Sublist.slnil
  | cons d t ih =>
    cases k with
    | succ k => exact (ih k).cons d
    | zero =>
      rw [replaceFrom]
      split
      · exact (ih _).cons d
      · exact (ih _).cons_cons d

/-- **Nothing is left** of a text exactly if it is nothing but pairs. -/
theorem replace_eq_nil_iff {t : Text} : t.replace [a, b] [] = [] ↔ ∃ n, t = (List.replicate n [a, b]).flatten := by
  show replaceFrom a [b] [] 0 t = [] ↔ _
  induction t using List.twoStepInduction with
  | nil => exact iff_of_true rfl ⟨0, rfl⟩
  | singleton d =>
    have hkept : replaceFrom a [b] [] 0 [d] = [d] := replaceFrom_cons (by simp)
    refine iff_of_false (by simp [hkept]) ?_
    rintro ⟨n, hn⟩
    cases n <;> simp [List.replicate_succ] at hn
  | cons_cons d e s ih _ =>
    by_cases h : d = a ∧ e = b
    · obtain ⟨rfl, rfl⟩ := h
      rw [replaceFrom_pair, List.nil_append, ih]
      constructor
      · rintro ⟨n, rfl⟩
        exact ⟨n + 1, by simp [List.replicate_succ]⟩
      · rintro ⟨n, hn⟩
        cases n with
        | zero => simp at hn
        | succ n => exact ⟨n, by simpa [List.replicate_succ] using hn⟩
    · have hkept : replaceFrom a [b] [] 0 (d :: e :: s) = d :: replaceFrom a [b] [] 0 (e :: s) :=
        replaceFrom_cons (by simpa using h)
      refine iff_of_false (by simp [hkept]) ?_
      rintro ⟨n, hn⟩
      cases n with
      | zero => simp at hn
      | succ n =>
        have hde : d = a ∧ e = b ∧ s = (List.replicate n [a, b]).flatten := by simpa [List.replicate_succ] using hn
        exact h ⟨hde.1, hde.2.1⟩

/-- Taking pairs out of a text leaves the other characters in order. -/
theorem replace_sublist (t : Text) : (t.replace [a, b] []).Sublist t := replaceFrom_sublist 0 t

theorem mem_of_mem_replace {t : Text} {c : CodePoint} (h : c ∈ t.replace [a, b] []) : c ∈ t := (replace_sublist t).subset h

end Replace

/-! ## Surrogates -/

/-- No code point is a surrogate. -/
def IsPlain (t : Text) : Prop := ∀ c ∈ t, c.isSurrogate = false

theorem isPlain_nil : IsPlain [] := fun _ hc => absurd hc List.not_mem_nil

theorem isPlain_ofChars (cs : List Char) : IsPlain (ofChars cs) := by
  intro c hc
  obtain ⟨a, _, rfl⟩ := List.mem_map.1 hc
  rfl

theorem IsPlain.append {s t : Text} (hs : IsPlain s) (ht : IsPlain t) : IsPlain (s ++ t) :=
  fun c hc => (List.mem_append.1 hc).elim (hs c) (ht c)

theorem IsPlain.cons {t : Text} (c : Char) (ht : IsPlain t) : IsPlain (.char c :: t) :=
  (isPlain_ofChars [c]).append ht

/-- A part that may be left out. -/
theorem IsPlain.optional {p : Prop} [Decidable p] {t : Text} (h : IsPlain t) : IsPlain (if p then [] else t) := by
  split
  · exact isPlain_nil
  · exact h

theorem isPlain_of_forall_isDigit {t : Text} (h : ∀ c ∈ t, c.isDigit = true) : IsPlain t := fun c hc =>
  CodePoint.isSurrogate_of_isDigit (h c hc)

end RequestRules.Text
