import Mathlib.Data.List.Pairwise
import RequestRules.Setting

/-!
# Settings as dictionaries

The keys of a map are compared by `Setting.sameScalar`, which is an equality on what the keys count as
(`Setting.sameScalar_iff`).  In a setting that is `Proper` no map has a key twice, at any depth; for such maps, `same?`
means that both say the same about every text (`Setting.field?_of_sameEntries`, `Setting.field?_eq_none`).
-/

namespace RequestRules

namespace Binary64

def one : Int := (Nat.pow 2 (-minPower).toNat : Nat)

theorem one_ne_zero : one ≠ 0 := by
  unfold one
  generalize (-minPower).toNat = k
  exact Int.natCast_ne_zero.2 (Nat.ne_of_gt (Nat.pow_pos (show 0 < 2 by decide)))

theorem eqInt_iff {x : Binary64} {n : Int} : x.eqInt n = true ↔ x.units? = some (n * one) := by
  unfold eqInt
  cases x.units? with
  | none => simp
  | some a =>
    show decide (a = n * one) = true ↔ some a = some (n * one)
    rw [decide_eq_true_iff, Option.some_inj]

end Binary64

namespace Setting

/-! ## Keys -/

/-- What a setting that is no container counts as. -/
inductive Scalar
  | null
  /-- a truth value, an integer or a fraction, as a multiple of the least fraction -/
  | number (units : Int)
  | infinite (negative : Bool)
  | noNumber
  | text (t : Text)
  | bytes (bs : List UInt8)
  | date (d : Date)
  | moment (hasOffset : Bool) (micros : Int)

/-- What a setting counts as, unless it is a container or a fraction that is not a number. -/
def scalar? : Setting → Option Scalar
  | null => some .null
  | bool b => some (.number ((if b then 1 else 0) * Binary64.one))
  | int n => some (.number (n * Binary64.one))
  | real (.infinite s) => some (.infinite s)
  | real x => x.units?.map .number
  | noNumber => some .noNumber
  | text t => some (.text t)
  | bytes bs => some (.bytes bs)
  | date d => some (.date d)
  | moment m => some (.moment m.offset.isSome (m.wall - m.offset.getD 0))
  | list _ | pair .. | set _ | map _ | endless => none

theorem sameMoment_iff {m n : Moment} : m.Same n ↔
    m.offset.isSome = n.offset.isSome ∧ m.wall - m.offset.getD 0 = n.wall - n.offset.getD 0 := by
  unfold Moment.Same
  cases m.offset <;> cases n.offset <;> simp

/-- **Keys are the same if they count as the same.** -/
theorem sameScalar_iff {a b : Setting} : sameScalar a b = true ↔ a.scalar? = b.scalar? ∧ a.scalar?.isSome := by
  have hone : ∀ i j : Int, i * Binary64.one = j * Binary64.one ↔ i = j :=
    fun _ _ => Int.mul_eq_mul_right_iff Binary64.one_ne_zero
  rcases a with _ | x | i | (⟨s, m, q⟩ | s | _) | _ | t | bs | d | m | _ | _ | _ | _ | _ <;>
    rcases b with _ | y | j | (⟨s', m', q'⟩ | s' | _) | _ | t' | bs' | d' | m' | _ | _ | _ | _ | _ <;>
    simp only [sameScalar, int?, scalar?, Binary64.eq, Binary64.eqInt_iff, Binary64.units?, sameMoment_iff, hone,
      Option.map_some, Option.map_none, Option.some.injEq, Scalar.number.injEq, Scalar.infinite.injEq, Scalar.text.injEq,
      Scalar.bytes.injEq, Scalar.date.injEq, Scalar.moment.injEq, decide_eq_true_eq, Option.isSome_some,
      Option.isSome_none, and_true, and_false, reduceCtorEq, Bool.false_eq_true]
  -- an integer is compared to a fraction the other way round
  all_goals exact eq_comm

theorem sameScalar_symm {a b : Setting} (h : sameScalar a b = true) : sameScalar b a = true := by
  obtain ⟨heq, hsome⟩ := sameScalar_iff.1 h
  exact sameScalar_iff.2 ⟨heq.symm, heq ▸ hsome⟩

theorem sameScalar_comm (a b : Setting) : sameScalar a b = sameScalar b a :=
  Bool.eq_iff_iff.2 ⟨sameScalar_symm, sameScalar_symm⟩

theorem sameScalar_trans {a b c : Setting} (hab : sameScalar a b = true) (hbc : sameScalar b c = true) :
    sameScalar a c = true := by
  obtain ⟨heq, hsome⟩ := sameScalar_iff.1 hab
  exact sameScalar_iff.2 ⟨heq.trans (sameScalar_iff.1 hbc).1, hsome⟩

theorem sameScalar_text {t : Text} {a : Setting} : sameScalar (text t) a = true ↔ a = text t := by
  rw [sameScalar_iff]
  rcases a with _ | x | i | (⟨s, m, q⟩ | s | _) | _ | t | bs | d | m | _ | _ | _ | _ | _ <;>
    simp [scalar?, Binary64.units?, eq_comm]

theorem isText_iff {t : Text} {a : Setting} : a.isText t = true ↔ a = text t := by
  cases a <;> simp [isText]

/-! ## Entries -/

section Entries

variable {t : Text} {k v w : Setting} {es fs : List (Setting × Setting)}

theorem find?_cons (e : Setting × Setting) (es : List (Setting × Setting)) (k : Setting) :
    find? k (e :: es) = if sameScalar k e.1 then some e.2 else find? k es := by
  unfold find?
  rw [List.find?_cons]
  cases sameScalar k e.1 <;> rfl

theorem find?_append (es fs : List (Setting × Setting)) (k : Setting) :
    find? k (es ++ fs) = (find? k es).or (find? k fs) := by
  unfold find?
  rw [List.find?_append]
  cases es.find? fun e => sameScalar k e.1 <;> rfl

theorem find?_eq_none : find? k es = none ↔ ∀ e ∈ es, sameScalar k e.1 = false := by
  unfold find?
  rw [Option.map_eq_none_iff, List.find?_eq_none]
  simp

theorem mem_of_find? (h : find? k es = some v) : ∃ l, (l, v) ∈ es ∧ sameScalar k l = true := by
  obtain ⟨e, hfind, rfl⟩ := Option.map_eq_some_iff.1 h
  have hsame : sameScalar k e.1 = true := by simpa using List.find?_some hfind
  exact ⟨e.1, List.mem_of_find?_eq_some hfind, hsame⟩

theorem mem_of_find?_text (h : find? (text t) es = some v) : (text t, v) ∈ es := by
  obtain ⟨l, hl, hsame⟩ := mem_of_find? h
  rwa [sameScalar_text.1 hsame] at hl

theorem isSome_find?_text : (find? (text t) es).isSome ↔ ∃ v, (text t, v) ∈ es := by
  constructor
  · intro h
    obtain ⟨v, hv⟩ := Option.isSome_iff_exists.1 h
    exact ⟨v, mem_of_find?_text hv⟩
  · rintro ⟨v, hv⟩
    rw [Option.isSome_iff_ne_none]
    intro hnone
    have hself : sameScalar (text t) (text t) = true := sameScalar_text.2 rfl
    rw [find?_eq_none.1 hnone _ hv] at hself
    exact absurd hself (by simp)

theorem find?_put_text (es : List (Setting × Setting)) (t : Text) (v : Setting) :
    find? (text t) (put es (text t) v) = some v := by
  have hself : sameScalar (text t) (text t) = true := sameScalar_text.2 rfl
  induction es with
  | nil => simp [put, find?_cons, hself]
  | cons e es ih =>
    obtain ⟨l, w⟩ := e
    unfold put
    by_cases hl : sameScalar (text t) l = true
    · rw [if_pos hl, find?_cons, if_pos hl]
    · rw [if_neg hl, find?_cons, if_neg hl, ih]

theorem find?_put_other {l : Setting} (h : sameScalar l k = false) (es : List (Setting × Setting)) (v : Setting) :
    find? k (put es l v) = find? k es := by
  have hkl : sameScalar k l = false := (sameScalar_comm k l).trans h
  induction es with
  | nil => simp [put, find?_cons, hkl]
  | cons e es ih =>
    obtain ⟨m, w⟩ := e
    unfold put
    by_cases hm : sameScalar l m = true
    · have hkm : sameScalar k m = false := by
        by_contra hkm
        rw [sameScalar_trans (by simpa using hkm) (sameScalar_symm hm)] at hkl
        exact absurd hkl (by simp)
      simp [hm, find?_cons, hkm]
    · rw [if_neg hm, find?_cons, find?_cons, ih]

/-- No two entries have the same key. -/
def DistinctKeys (es : List (Setting × Setting)) : Prop := es.Pairwise fun e f => sameScalar e.1 f.1 = false

/-- An entry under a text cuts a map with distinct keys into parts without that text. -/
theorem DistinctKeys.cut (hd : DistinctKeys es) (h : find? (text t) es = some v) :
    ∃ front back, es = front ++ (text t, v) :: back ∧ (∀ e ∈ front, e.1 ≠ text t) ∧ ∀ e ∈ back, e.1 ≠ text t := by
  obtain ⟨front, back, rfl⟩ := List.append_of_mem (mem_of_find?_text h)
  obtain ⟨_, hback, hfront⟩ := List.pairwise_append.1 hd
  refine ⟨front, back, rfl, ?_, ?_⟩
  · intro e he hk
    have := hfront e he (text t, v) (by simp)
    rw [hk, sameScalar_text.2 rfl] at this
    exact absurd this (by simp)
  · intro e he hk
    have := (List.pairwise_cons.1 hback).1 e he
    rw [hk, sameScalar_text.2 rfl] at this
    exact absurd this (by simp)

/-! ## Settings that are the same -/

theorem sameInside?_text (h : sameInside? (text t) v = some true) : v = text t := by
  have hscalar : sameInside? (text t) v = some (sameScalar (text t) v) := by
    simp [sameInside?]
  rw [hscalar] at h
  exact sameScalar_text.1 (Option.some.inj h)

theorem forall₂_of_sameItems {xs ys : List Setting} (h : sameItems? xs ys = some true) :
    List.Forall₂ (fun x y => sameInside? x y = some true) xs ys := by
  induction xs generalizing ys with
  | nil =>
    cases ys with
    | nil => exact .nil
    | cons y ys => exact absurd h (by simp [sameItems?])
  | cons x xs ih =>
    cases ys with
    | nil => exact absurd h (by simp [sameItems?])
    | cons y ys =>
      unfold sameItems? at h
      obtain ⟨b, hb, h⟩ := Option.bind_eq_some_iff.1 h
      cases b with
      | true => exact .cons hb (ih h)
      | false => exact absurd h (by simp)

theorem sameInside?_list {xs ys : List Setting} (h : sameInside? (list xs) (list ys) = some true) :
    List.Forall₂ (fun x y => sameInside? x y = some true) xs ys := by
  unfold sameInside? at h
  simp only at h
  split at h
  · exact forall₂_of_sameItems h
  · exact absurd h (by simp)

theorem sameInside?_map (h : sameInside? (map es) (map fs) = some true) :
    es.length = fs.length ∧ sameEntries? es fs = some true := by
  unfold sameInside? at h
  simp only at h
  split at h
  · next hlen => exact ⟨hlen, h⟩
  · exact absurd h (by simp)

theorem sameEntries?_cons (e : Setting × Setting) (es fs : List (Setting × Setting))
    (h : sameEntries? (e :: es) fs = some true) :
    (∃ w, find? e.1 fs = some w ∧ sameInside? e.2 w = some true) ∧ sameEntries? es fs = some true := by
  obtain ⟨k, v⟩ := e
  unfold sameEntries? at h
  cases hf : find? k fs with
  | none => simp [hf] at h
  | some w =>
    rw [hf] at h
    obtain ⟨b, hb, h⟩ := Option.bind_eq_some_iff.1 h
    cases b with
    | true => exact ⟨⟨w, rfl, hb⟩, h⟩
    | false => simp at h

/-- What the one map says about a text, the other says, too. -/
theorem find?_of_sameEntries (h : sameEntries? es fs = some true) (hv : find? (text t) es = some v) :
    ∃ w, find? (text t) fs = some w ∧ sameInside? v w = some true := by
  induction es with
  | nil => simp [find?] at hv
  | cons e es ih =>
    obtain ⟨⟨w, hw, hsame⟩, h⟩ := sameEntries?_cons e es fs h
    rw [find?_cons] at hv
    by_cases he : sameScalar (text t) e.1 = true
    · rw [if_pos he] at hv
      cases hv
      rw [sameScalar_text.1 he] at hw
      exact ⟨w, hw, hsame⟩
    · rw [if_neg he] at hv
      exact ih h hv

/-- Every key of the one map is one of the other. -/
theorem exists_of_sameEntries (h : sameEntries? es fs = some true) :
    ∀ e ∈ es, ∃ f ∈ fs, sameScalar e.1 f.1 = true := by
  induction es with
  | nil => simp
  | cons e es ih =>
    obtain ⟨⟨w, hw, _⟩, h⟩ := sameEntries?_cons e es fs h
    intro e' he'
    rcases List.mem_cons.1 he' with rfl | he'
    · obtain ⟨l, hl, hsame⟩ := mem_of_find? hw
      exact ⟨(l, w), hl, hsame⟩
    · exact ih h e' he'

/-- Distinct keys that all have one of `fs` are at most as many as `fs`. -/
theorem length_le_of_distinctKeys (hd : DistinctKeys es) (h : ∀ e ∈ es, ∃ f ∈ fs, sameScalar e.1 f.1 = true) :
    es.length ≤ fs.length := by
  induction es generalizing fs with
  | nil => simp
  | cons e es ih =>
    obtain ⟨hne, hd⟩ := List.pairwise_cons.1 hd
    obtain ⟨f, hf, hef⟩ := h e (by simp)
    obtain ⟨front, back, rfl⟩ := List.append_of_mem hf
    -- no other key has the same one
    have hrest : ∀ e' ∈ es, ∃ f' ∈ front ++ back, sameScalar e'.1 f'.1 = true := by
      intro e' he'
      obtain ⟨f', hf', hsame⟩ := h e' (List.mem_cons_of_mem _ he')
      refine ⟨f', ?_, hsame⟩
      rcases List.mem_append.1 hf' with hf' | hf'
      · exact List.mem_append_left _ hf'
      · rcases List.mem_cons.1 hf' with rfl | hf'
        · have := sameScalar_trans hef (sameScalar_symm hsame)
          rw [hne e' he'] at this
          exact absurd this (by simp)
        · exact List.mem_append_right _ hf'
    have := ih hd hrest
    simp only [List.length_append, List.length_cons] at this ⊢
    omega

/-- **A text that is not in the one map is not in the other**, if they are of one length and the keys are distinct. -/
theorem find?_eq_none_of_sameEntries (hd : DistinctKeys es) (hlen : es.length = fs.length)
    (h : sameEntries? es fs = some true) (hes : find? (text t) es = none) : find? (text t) fs = none := by
  by_contra hfs
  obtain ⟨v, hv⟩ := Option.ne_none_iff_exists'.1 hfs
  obtain ⟨front, back, rfl⟩ := List.append_of_mem (mem_of_find?_text hv)
  have hrest : ∀ e ∈ es, ∃ f ∈ front ++ back, sameScalar e.1 f.1 = true := by
    intro e he
    obtain ⟨f, hf, hsame⟩ := exists_of_sameEntries h e he
    refine ⟨f, ?_, hsame⟩
    rcases List.mem_append.1 hf with hf | hf
    · exact List.mem_append_left _ hf
    · rcases List.mem_cons.1 hf with rfl | hf
      · have hne := find?_eq_none.1 hes e he
        rw [sameScalar_symm hsame] at hne
        exact absurd hne (by simp)
      · exact List.mem_append_right _ hf
  have := length_le_of_distinctKeys hd hrest
  simp only [List.length_append, List.length_cons] at this hlen
  omega

end Entries

/-! ## Settings that have an end -/

section HasEnd

theorem allHaveEnd_cons {x : Setting} {xs : List Setting} :
    allHaveEnd (x :: xs) = true ↔ x.hasEnd = true ∧ allHaveEnd xs = true := by
  rw [allHaveEnd, Bool.and_eq_true]

theorem valuesHaveEnd_iff {es : List (Setting × Setting)} :
    valuesHaveEnd es = true ↔ ∀ e ∈ es, e.2.hasEnd = true := by
  induction es with
  | nil => simp [valuesHaveEnd]
  | cons e es ih => rw [valuesHaveEnd, Bool.and_eq_true, ih, List.forall_mem_cons]

/-- The second comparison counts only if the first does not settle it. -/
theorem isSome_both {x y : Option Bool} (hx : x.isSome) (hy : y.isSome) :
    (do if ← x then y else some false : Option Bool).isSome := by
  cases x with
  | none => exact absurd hx (by simp)
  | some b => cases b <;> simp [hy]

mutual
/-- A setting that has an end can be compared with every other. -/
theorem sameInside?_isSome (a b : Setting) (h : a.hasEnd = true ∨ b.hasEnd = true) : (sameInside? a b).isSome := by
  cases a with
  | list xs =>
    cases b with
    | list ys =>
      simp only [sameInside?]
      split
      · exact sameItems?_isSome xs ys h
      · rfl
    | endless =>
      have hxs : allHaveEnd xs = true := h.resolve_right (by simp [hasEnd])
      simp [sameInside?, hxs]
    | _ => rfl
  | pair a₁ a₂ =>
    cases b with
    | pair b₁ b₂ =>
      have hends : (a₁.hasEnd = true ∧ a₂.hasEnd = true) ∨ (b₁.hasEnd = true ∧ b₂.hasEnd = true) := by
        simpa only [hasEnd, Bool.and_eq_true] using h
      exact isSome_both (sameInside?_isSome a₁ b₁ (hends.imp And.left And.left))
        (sameInside?_isSome a₂ b₂ (hends.imp And.right And.right))
    | endless =>
      have ha : (a₁.hasEnd && a₂.hasEnd) = true := h.resolve_right (by simp [hasEnd])
      simp [sameInside?, ha]
    | _ => rfl
  | map es =>
    cases b with
    | map fs =>
      simp only [sameInside?]
      split
      · exact sameEntries?_isSome es fs h
      · rfl
    | endless =>
      have hes : valuesHaveEnd es = true := h.resolve_right (by simp [hasEnd])
      simp [sameInside?, hes]
    | _ => rfl
  | endless =>
    have hb : b.hasEnd = true := h.resolve_left (by simp [hasEnd])
    simp [sameInside?, hb]
  | set xs => cases b <;> rfl
  | _ => rfl
theorem sameItems?_isSome (xs ys : List Setting) (h : allHaveEnd xs = true ∨ allHaveEnd ys = true) :
    (sameItems? xs ys).isSome := by
  cases xs with
  | nil => cases ys <;> rfl
  | cons x xs =>
    cases ys with
    | nil => rfl
    | cons y ys =>
      simp only [allHaveEnd_cons] at h
      exact isSome_both (sameInside?_isSome x y (h.imp And.left And.left))
        (sameItems?_isSome xs ys (h.imp And.right And.right))
theorem sameEntries?_isSome (es fs : List (Setting × Setting))
    (h : valuesHaveEnd es = true ∨ valuesHaveEnd fs = true) : (sameEntries? es fs).isSome := by
  cases es with
  | nil => rfl
  | cons e es =>
    obtain ⟨k, v⟩ := e
    rw [sameEntries?]
    split
    · next w hw =>
      obtain ⟨l, hl, _⟩ := mem_of_find? hw
      have hv : v.hasEnd = true ∨ w.hasEnd = true :=
        h.imp (fun h => valuesHaveEnd_iff.1 h (k, v) List.mem_cons_self) fun h => valuesHaveEnd_iff.1 h (l, w) hl
      have hes : valuesHaveEnd es = true ∨ valuesHaveEnd fs = true :=
        h.imp_left fun h => valuesHaveEnd_iff.2 fun e he => valuesHaveEnd_iff.1 h e (List.mem_cons_of_mem _ he)
      exact isSome_both (sameInside?_isSome v w hv) (sameEntries?_isSome es fs hes)
    · rfl
end

/-- **Two settings of which one has an end can be compared.** -/
theorem same?_isSome {a b : Setting} (h : a.hasEnd = true ∨ b.hasEnd = true) : (same? a b).isSome := by
  unfold same?
  split
  · rfl
  · exact sameInside?_isSome a b h

end HasEnd

/-! ## Proper settings -/

mutual
/-- No map in the setting has a key twice. -/
def Proper : Setting → Prop
  | list xs => AllProper xs
  | pair a b => Proper a ∧ Proper b
  | map es => DistinctKeys es ∧ ValuesProper es
  | null | bool _ | int _ | real _ | noNumber | text _ | bytes _ | date _ | moment _ | set _ | endless => True
def AllProper : List Setting → Prop
  | [] => True
  | x :: xs => Proper x ∧ AllProper xs
def ValuesProper : List (Setting × Setting) → Prop
  | [] => True
  | (_, v) :: es => Proper v ∧ ValuesProper es
end

theorem AllProper.mem {xs : List Setting} (h : AllProper xs) : ∀ x ∈ xs, x.Proper := by
  induction xs with
  | nil => simp
  | cons x xs ih =>
    intro y hy
    rcases List.mem_cons.1 hy with rfl | hy
    · exact h.1
    · exact ih h.2 y hy

theorem ValuesProper.mem {es : List (Setting × Setting)} (h : ValuesProper es) : ∀ e ∈ es, e.2.Proper := by
  induction es with
  | nil => simp
  | cons e es ih =>
    intro f hf
    rcases List.mem_cons.1 hf with rfl | hf
    · exact h.1
    · exact ih h.2 f hf

end Setting

end RequestRules
