import Mathlib.Algebra.Ring.Nat
import RequestRules.Number.Whole
import RequestRules.Proofs.Text

/-!
# Numerals come back

* `Numeral.value_padded`, `Numeral.length_padded` — zeros in front change the width and not the number;
* `Numeral.value_append`, `Numeral.value_lt` — the number of a run of digits from its parts, and its bound;
* `Numeral.value_ofInt` — an integer from its digits and its sign;
* `Whole.read_ofNat` — a whole number is read from its numeral.
-/

namespace RequestRules

namespace Numeral

variable {c : CodePoint} {ds es : Text} {n w : Nat}

theorem forall_isDigit_ofNat (n : Nat) : ∀ c ∈ ofNat n, c.isDigit = true := fun _ => isDigit_of_mem_ofNat

theorem ne_of_isDigit {c d : CodePoint} (hc : c.isDigit = true) (hd : d.isDigit = false) : c ≠ d := by
  rintro rfl
  rw [hd] at hc
  exact absurd hc (by decide)

theorem exists_cons_ofNat (n : Nat) : ∃ c ds, ofNat n = c :: ds ∧ c.isDigit = true := by
  obtain ⟨c, ds, hds⟩ := List.exists_cons_of_ne_nil (ofNat_ne_nil n)
  exact ⟨c, ds, hds, forall_isDigit_ofNat n c (hds ▸ List.mem_cons_self)⟩

theorem length_ofNat_pos (n : Nat) : 0 < (ofNat n).length := List.length_pos_iff.2 (ofNat_ne_nil n)

theorem length_ofNat_le (hw : 0 < w) : (ofNat n).length ≤ w ↔ n < 10 ^ w := by
  unfold ofNat Text.ofChars
  rw [List.length_map]
  exact Nat.length_toDigits_le_iff (by decide) hw

theorem value_append (ds es : Text) : value (ds ++ es) = 10 ^ es.length * value ds + value es := by
  induction es using List.reverseRecOn with
  | nil => simp [value]
  | append_singleton es c ih =>
    have hsnoc : ∀ cs : Text, value (cs ++ [c]) = 10 * value cs + (c.toNat - 0x30) := fun cs => by simp [value]
    rw [← List.append_assoc, hsnoc, hsnoc, ih, List.length_append, List.length_singleton, Nat.pow_succ, Nat.mul_add,
      Nat.mul_right_comm, Nat.mul_comm 10, Nat.mul_right_comm, Nat.add_assoc]

theorem value_zeros (k : Nat) : value (List.replicate k (.char '0')) = 0 := by
  have hzeros : List.replicate k (.char '0') = Text.ofChars (List.replicate k '0') := List.map_replicate.symm
  rw [hzeros, value_ofChars, Nat.ofDigitChars_replicate_zero, Nat.mul_zero]

theorem value_zeros_append (k : Nat) (ds : Text) : value (List.replicate k (.char '0') ++ ds) = value ds := by
  rw [value_append, value_zeros, Nat.mul_zero, Nat.zero_add]

/-- A run of digits denotes less than the next power of ten. -/
theorem value_lt (h : ∀ c ∈ ds, c.isDigit = true) : value ds < 10 ^ ds.length := by
  induction ds using List.reverseRecOn with
  | nil => decide
  | append_singleton ds c ih =>
    have hc : c.toNat - 0x30 < 10 := by
      have hdigit := CodePoint.isDigit_iff_toNat.1 (h c (by simp))
      omega
    have hds := ih fun d hd => h d (List.mem_append_left _ hd)
    have hvalue : value [c] = c.toNat - 0x30 := by simp [value]
    rw [value_append, hvalue, List.length_append, List.length_singleton, Nat.pow_succ]
    omega

/-! ## Zeros in front -/

theorem isDigit_of_mem_padded (h : c ∈ padded w n) : c.isDigit = true := by
  rcases List.mem_append.1 h with h | h
  · rw [List.eq_of_mem_replicate h]
    rfl
  · exact isDigit_of_mem_ofNat h

theorem isPlain_padded (w n : Nat) : Text.IsPlain (padded w n) :=
  Text.isPlain_of_forall_isDigit fun _ => isDigit_of_mem_padded

theorem value_padded (w n : Nat) : value (padded w n) = n := (value_zeros_append _ _).trans (value_ofNat n)

theorem length_padded (hw : 0 < w) (hn : n < 10 ^ w) : (padded w n).length = w := by
  have hle := (length_ofNat_le hw).2 hn
  unfold padded
  rw [List.length_append, List.length_replicate]
  omega

/-! ## Integers -/

theorem ofInt_natCast (n : Nat) : ofInt n = ofNat n := rfl

theorem ofInt_negSucc (n : Nat) : ofInt (.negSucc n) = .char '-' :: ofNat (n + 1) := rfl

end Numeral

/-! ## Whole numbers -/

namespace Whole

theorem isAscii_of_isDigit {c : CodePoint} (h : c.isDigit = true) : c.toNat < 128 := by
  have hdigit := CodePoint.isDigit_iff_toNat.1 h
  have hnine : '9'.toNat = 57 := rfl
  omega

theorem separated_of_isDigit {run : Text} (h : ∀ c ∈ run, c.isDigit = true) : separated run = true := by
  have hmark : .char '_' ∉ run := fun hm => absurd (h '_' hm) (by decide)
  have hpair : (.char '_', .char '_') ∉ run.zip run.tail := fun hp => hmark (List.of_mem_zip hp).1
  have hhead : run.head? ≠ some (.char '_') := fun hh => hmark (List.mem_of_mem_head? hh)
  have hlast : run.getLast? ≠ some (.char '_') := fun hl => hmark (List.mem_of_getLast? hl)
  simp [separated, hhead, hlast, hpair]

/-- **A whole number is read from its numeral**, unless that has too many digits. -/
theorem read_ofNat {n : Nat} (h : (Numeral.ofNat n).length ≤ Numeral.limit) : read (Numeral.ofNat n) = .ok n := by
  have hdigits := Numeral.forall_isDigit_ofNat n
  have hplain : plain (Numeral.ofNat n) = Numeral.ofNat n := by
    unfold plain
    rw [if_pos]
    simpa using fun c hc => isAscii_of_isDigit (hdigits c hc)
  have hspan : (Numeral.ofNat n).span (fun c => c.isDigit || c = .char '_') = (Numeral.ofNat n, []) := by
    have hrun := Text.span_append (p := fun c => c.isDigit || c = .char '_') (l := Numeral.ofNat n) (r := [])
      (fun c hc => by simp [hdigits c hc]) (by simp)
    rwa [List.append_nil] at hrun
  have hfilter : (Numeral.ofNat n).filter (· ≠ .char '_') = Numeral.ofNat n := by
    rw [List.filter_eq_self]
    intro c hc
    simpa using Numeral.ne_of_isDigit (hdigits c hc) rfl
  obtain ⟨a, t, hcons, ha⟩ := Numeral.exists_cons_ofNat n
  have hdrop : (Numeral.ofNat n).dropWhile isAsciiBlank = Numeral.ofNat n := by
    have hblank : isAsciiBlank a = false := by
      rw [Bool.eq_false_iff]
      intro hb
      simp only [isAsciiBlank, decide_eq_true_eq] at hb
      rcases hb with rfl | rfl | rfl | rfl | rfl | rfl <;> exact absurd ha (by decide)
    rw [hcons, List.dropWhile_cons_of_neg (by simp [hblank])]
  unfold read
  rw [hplain, hdrop]
  dsimp only
  split
  · -- a numeral begins with no sign
    next heq => exact absurd (hdigits '-' (heq ▸ List.mem_cons_self)) (by decide)
  · next heq => exact absurd (hdigits '+' (heq ▸ List.mem_cons_self)) (by decide)
  · simp only [hspan, hfilter, separated_of_isDigit hdigits, Bool.not_true, Bool.false_eq_true, if_false, Nat.not_lt.2 h,
      Numeral.ofNat_ne_nil, List.isEmpty_iff, List.all_nil, or_false, Numeral.value_ofNat]

end Whole

end RequestRules
