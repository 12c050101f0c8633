import RequestRules.Command

/-!
# Sameness

That values, or keys, denote the same thing is an equivalence.
-/

namespace RequestRules

namespace Moment.Same

theorem refl (m : Moment) : m.Same m := by
  unfold Same
  cases m.offset <;> rfl

theorem symm {a b : Moment} (h : a.Same b) : b.Same a := by
  unfold Same at h ⊢
  cases ha : a.offset <;> cases hb : b.offset <;> simp only [ha, hb] at h ⊢ <;> exact h.symm

theorem trans {a b c : Moment} (hab : a.Same b) (hbc : b.Same c) : a.Same c := by
  unfold Same at hab hbc ⊢
  cases ha : a.offset <;> cases hb : b.offset <;> cases hc : c.offset <;> simp only [ha, hb, hc] at hab hbc ⊢
  · exact hab.trans hbc
  · exact hab.trans hbc

end Moment.Same

namespace Value.Same

theorem refl (v : Value) : v.Same v := by
  cases v with
  | dateTime m => exact Moment.Same.refl m
  | _ => simp [Same, Decimal.SameNumber]

theorem symm {v w : Value} (h : v.Same w) : w.Same v := by
  cases v <;> cases w <;> simp only [Same] at h ⊢
  case word => exact ⟨h.1.symm, h.2.symm⟩
  case dateTime => exact Moment.Same.symm h
  case color => exact ⟨h.1.symm, h.2.1.symm, h.2.2.symm⟩
  all_goals exact Eq.symm h

theorem trans {u v w : Value} (huv : u.Same v) (hvw : v.Same w) : u.Same w := by
  cases u <;> cases v <;> simp only [Same] at huv <;> cases w <;> simp only [Same] at hvw ⊢
  case word => exact ⟨huv.1.trans hvw.1, huv.2.trans hvw.2⟩
  case dateTime => exact Moment.Same.trans huv hvw
  case color => exact ⟨huv.1.trans hvw.1, huv.2.1.trans hvw.2.1, huv.2.2.trans hvw.2.2⟩
  all_goals exact Eq.trans huv hvw

end Value.Same

namespace Key.Same

theorem refl (k : Key) : k.Same k := by
  cases k with
  | command v => exact Value.Same.refl v
  | _ => trivial

theorem symm {k l : Key} (h : k.Same l) : l.Same k := by
  cases k <;> cases l <;> simp only [Same] at h ⊢
  exact Value.Same.symm h

theorem trans {k l m : Key} (hkl : k.Same l) (hlm : l.Same m) : k.Same m := by
  cases k <;> cases l <;> simp only [Same] at hkl <;> cases m <;> simp only [Same] at hlm ⊢
  exact Value.Same.trans hkl hlm

end Key.Same

end RequestRules
