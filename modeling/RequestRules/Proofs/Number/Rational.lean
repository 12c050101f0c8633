import Mathlib.Algebra.Order.Field.Power
import Mathlib.Algebra.Order.Field.Rat
import Mathlib.Tactic.Ring
import RequestRules.Number.Decimal

/-!
# The numbers that decimals denote

Two decimals are writings of one number exactly if they denote the same rational (`Decimal.sameNumber_iff`).  The
comparison never computes that rational, whose numerator or denominator may have a quintillion digits: it compares the
shortest writings, and a coefficient that does not end with zero leaves only one exponent for a rational.
-/

namespace RequestRules

namespace Decimal

def toRat (d : Decimal) : ℚ := (if d.negative then -1 else 1) * (d.coefficient * 10 ^ d.exponent)

theorem ten_zpow_pos (e : Int) : (0 : ℚ) < 10 ^ e := zpow_pos (by decide) e

/-! ## The shortest writing -/

theorem strip_mul_zpow (c : Nat) (e : Int) : ((strip c e).1 : ℚ) * 10 ^ (strip c e).2 = c * 10 ^ e := by
  induction c, e using strip.induct with
  | case1 c e h ih =>
    have hc : (c : ℚ) = (c / 10 : Nat) * 10 := by
      have hdiv : c = c / 10 * 10 := by omega
      exact_mod_cast hdiv
    rw [strip, dif_pos h, ih, zpow_add_one₀ (by decide), hc]
    ring
  | case2 c e h => rw [strip, dif_neg h]

theorem strip_mod_ne_zero {c : Nat} (hc : c ≠ 0) (e : Int) : (strip c e).1 % 10 ≠ 0 := by
  induction c, e using strip.induct with
  | case1 c e h ih =>
    rw [strip, dif_pos h]
    exact ih (by omega)
  | case2 c e h =>
    rw [strip, dif_neg h]
    exact fun hmod => h ⟨hc, hmod⟩

/-- Coefficients that do not end with zero, and their exponents, are determined by the number. -/
theorem eq_of_mul_zpow_eq {c c' : Nat} {e e' : Int} (hc : c % 10 ≠ 0) (hc' : c' % 10 ≠ 0)
    (h : (c : ℚ) * 10 ^ e = c' * 10 ^ e') : c = c' ∧ e = e' := by
  -- with `e < e'` the first coefficient would be a multiple of ten
  have key : ∀ {a a' : Nat} {b b' : Int}, a % 10 ≠ 0 → (a : ℚ) * 10 ^ b = a' * 10 ^ b' → ¬ b < b' := by
    intro a a' b b' ha hab hlt
    obtain ⟨k, hk⟩ : ∃ k : Nat, b' = b + (k + 1 : Nat) := ⟨(b' - b - 1).toNat, by omega⟩
    have hmul : (a : ℚ) = (a' * 10 ^ k * 10 : Nat) := by
      refine mul_right_cancel₀ (ten_zpow_pos b).ne' (hab.trans ?_)
      rw [hk, zpow_add₀ (by decide), zpow_natCast, pow_succ]
      push_cast
      ring
    have hnat : a = a' * 10 ^ k * 10 := by exact_mod_cast hmul
    omega
  have he : e = e' := by
    rcases Int.lt_trichotomy e e' with hlt | heq | hgt
    · exact absurd hlt (key hc h)
    · exact heq
    · exact absurd hgt (key hc' h.symm)
  subst he
  exact ⟨by exact_mod_cast mul_right_cancel₀ (ten_zpow_pos e).ne' h, rfl⟩

/-- Zero has one shortest writing, any other number has one whose coefficient does not end with zero. -/
def IsShortest (d : Decimal) : Prop := d = ⟨false, 0, 0⟩ ∨ d.coefficient % 10 ≠ 0

theorem isShortest_normal (d : Decimal) : d.normal.IsShortest := by
  unfold normal
  split
  · exact .inl rfl
  · next hc => exact .inr (strip_mod_ne_zero hc d.exponent)

theorem toRat_normal (d : Decimal) : d.normal.toRat = d.toRat := by
  unfold normal
  split
  · next hc => simp [toRat, hc]
  · show (if d.negative then -1 else 1) * ((strip d.coefficient d.exponent).1 *
      (10 : ℚ) ^ (strip d.coefficient d.exponent).2) = d.toRat
    rw [strip_mul_zpow]
    rfl

section Signs

variable {d d' : Decimal}

theorem magnitude_pos (h : d.coefficient % 10 ≠ 0) : (0 : ℚ) < d.coefficient * 10 ^ d.exponent := by
  have hc : 0 < d.coefficient := by omega
  exact mul_pos (by exact_mod_cast hc) (ten_zpow_pos d.exponent)

theorem toRat_ne_zero (h : d.coefficient % 10 ≠ 0) : d.toRat ≠ 0 := by
  have hpos := magnitude_pos h
  unfold toRat
  split <;> simp [hpos.ne']

theorem toRat_neg_iff (h : d.coefficient % 10 ≠ 0) : d.toRat < 0 ↔ d.negative = true := by
  have hpos := magnitude_pos h
  unfold toRat
  cases d.negative with
  | true => simpa using hpos
  | false => simpa using hpos.le

theorem abs_toRat (h : d.coefficient % 10 ≠ 0) : |d.toRat| = d.coefficient * 10 ^ d.exponent := by
  have hpos := magnitude_pos h
  unfold toRat
  cases d.negative with
  | true => simp [abs_of_pos hpos]
  | false => simp [abs_of_pos hpos]

/-- A number has one shortest writing. -/
theorem IsShortest.eq_of_toRat_eq (h : d.IsShortest) (h' : d'.IsShortest) (heq : d.toRat = d'.toRat) : d = d' := by
  have hzero : toRat ⟨false, 0, 0⟩ = 0 := by simp [toRat]
  rcases h with rfl | h <;> rcases h' with rfl | h'
  · rfl
  · exact absurd (heq.symm.trans hzero) (toRat_ne_zero h')
  · exact absurd (heq.trans hzero) (toRat_ne_zero h)
  · have hmagnitude : (d.coefficient : ℚ) * 10 ^ d.exponent = d'.coefficient * 10 ^ d'.exponent := by
      rw [← abs_toRat h, ← abs_toRat h', heq]
    obtain ⟨hc, he⟩ := eq_of_mul_zpow_eq h h' hmagnitude
    have hsign : d.negative = d'.negative := by
      rw [Bool.eq_iff_iff, ← toRat_neg_iff h, ← toRat_neg_iff h', heq]
    obtain ⟨s, c, e⟩ := d
    obtain ⟨s', c', e'⟩ := d'
    cases hc
    cases he
    cases hsign
    rfl

end Signs

/-- **Decimals are writings of one number exactly if they denote the same rational.** -/
theorem sameNumber_iff (a b : Decimal) : a.SameNumber b ↔ a.toRat = b.toRat := by
  constructor
  · intro h
    rw [← toRat_normal a, h, toRat_normal]
  · intro h
    rw [← toRat_normal a, ← toRat_normal b] at h
    exact (isShortest_normal a).eq_of_toRat_eq (isShortest_normal b) h

/-- Fifty, and five times ten. -/
example : toRat ⟨false, 50, 0⟩ = toRat ⟨false, 5, 1⟩ := (sameNumber_iff _ _).1 (by decide +kernel)

end Decimal

end RequestRules
