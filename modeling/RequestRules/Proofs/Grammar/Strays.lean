import RequestRules.Proofs.Pattern.Brackets

/-!
# What stands between the segments

A configuration text is gone through from the left, and a character at which no segment stands is passed over.  So every
text that is accepted is its segments with a gap behind each (`Stretch`, `Stretch.written`), and a gap can be any text that
begins with white space, or is empty at the end, as long as no segment stands in it (`Stretch.Cut`).  A rule with another
mark than `<` and `>`, or without one, is lost in a gap, and nothing is reported.

* `scan_eq_ok_iff` — what is cut out of a text;
* `Stretch.restores_iff` — the text comes back from its segments and white space exactly if there is nothing else in the
  gaps: whichever way it is put together, what is no white space is counted in the segments and in the gaps.

`segments_gaps` puts them together.
-/

namespace RequestRules

namespace Direction

/-- A segment, and the gap between it and the next one. -/
structure Stretch where
  segment : Direction × Text
  gap : Text
  deriving DecidableEq, Repr

namespace Stretch

def written : List Stretch → Text
  | [] => []
  | s :: ss => bracket s.segment ++ (s.gap ++ written ss)

/-- No segment stands at any place in a gap, before `rest`. -/
def Unopened (gap rest : Text) : Prop := ∀ v, v <:+ gap → v ≠ [] → ∀ d i r, ¬ Opens (v ++ rest) d i r

/-- Each segment is closed by white space, or by the end of the text, and is the next one behind the segment before it. -/
inductive Cut : List Stretch → Prop
  | nil : Cut []
  | cons {s : Stretch} {ss : List Stretch} (inner : s.segment.2.Enclosable)
    (closed : ∀ c ∈ (s.gap ++ written ss).head?, isAsciiBlank c = true) (passed : Unopened s.gap (written ss))
    (rest : Cut ss) : Cut (s :: ss)

/-! ## Cutting -/

theorem opening?_eq_none_iff {t : Text} : opening? t = none ↔ ∀ d i r, ¬ Opens t d i r := by
  constructor
  · intro h d i r hopens
    rw [opening?_eq_some.2 ⟨d, rfl, hopens⟩] at h
    exact absurd h (by simp)
  · intro h
    rw [Option.eq_none_iff_forall_ne_some]
    rintro ⟨c, i, r⟩ hopen
    obtain ⟨d, _, hopens⟩ := opening?_eq_some.1 hopen
    exact h d i r hopens

theorem unopened_nil (rest : Text) : Unopened [] rest := fun _ hv hne => absurd (List.suffix_nil.1 hv) hne

theorem unopened_cons {c : CodePoint} {gap rest : Text} :
    Unopened (c :: gap) rest ↔ opening? (c :: (gap ++ rest)) = none ∧ Unopened gap rest := by
  rw [opening?_eq_none_iff]
  constructor
  · intro h
    exact ⟨h _ (List.suffix_refl _) (by simp), fun v hv => h v (hv.trans (List.suffix_cons c gap))⟩
  · rintro ⟨hfront, hgap⟩ v hv hne
    rcases List.suffix_cons_iff.1 hv with rfl | hv
    · exact hfront
    · exact hgap v hv hne

/-- A gap is passed over. -/
theorem scan_of_unopened {gap rest : Text} (h : Unopened gap rest) : scan (gap ++ rest) = scan rest := by
  induction gap with
  | nil => rfl
  | cons c gap ih =>
    obtain ⟨hfront, hgap⟩ := unopened_cons.1 h
    rw [List.cons_append, scan_cons hfront, ih hgap]

/-- Anything without a mark is passed over. -/
theorem unopened_of_noMark {gap : Text} (h : ∀ c ∈ gap, isMark c = false) (rest : Text) : Unopened gap rest := by
  induction gap with
  | nil => exact unopened_nil rest
  | cons c gap ih =>
    obtain ⟨hc, hgap⟩ := List.forall_mem_cons.1 h
    exact unopened_cons.2 ⟨opening?_eq_none (.inl hc), ih hgap⟩

theorem scan_nil : scan [] = .ok [] := by
  rw [scan]
  rfl

theorem scan_written {ss : List Stretch} (h : Cut ss) : scan (written ss) = .ok (ss.map segment) := by
  induction h with
  | nil => exact scan_nil
  | @cons s ss inner closed passed _ ih =>
    rw [written, scan_append inner closed]
    obtain ⟨x, gap⟩ := s
    cases gap with
    | nil =>
      cases ss with
      | nil => rw [written, List.append_nil, List.tail_nil, scan_nil]; rfl
      | cons y ss =>
        -- a segment would follow at once, and no mark is white space
        obtain ⟨⟨d, i⟩, g⟩ := y
        have hmark : isAsciiBlank d.mark = true := closed _ rfl
        cases d <;> exact absurd hmark (by decide)
    | cons b gap =>
      rw [List.cons_append, List.tail_cons, scan_of_unopened (unopened_cons.1 passed).2, ih]
      rfl

end Stretch

open Stretch

/-- **What is cut out of a text** are the segments of its cut. -/
theorem scan_eq_ok_iff {t : Text} {xs : List (Direction × Text)} : scan t = .ok xs ↔
    ∃ front ss, t = front ++ written ss ∧ Unopened front (written ss) ∧ Cut ss ∧ ss.map segment = xs := by
  constructor
  · intro h
    fun_induction scan t generalizing xs with
    | case1 t c i r hopen ih =>
      obtain ⟨d, rfl, ⟨tail, rfl, hclosed, rfl⟩, hinner⟩ := opening?_eq_some.1 hopen
      obtain ⟨d', hd, h⟩ := Outcome.bind_eq_ok.1 h
      obtain ⟨ys, hys, h⟩ := Outcome.bind_eq_ok.1 h
      rw [ofText_mark] at hd
      cases hd
      cases h
      obtain ⟨front, ss, hrest, hfront, hss, rfl⟩ := ih hys
      cases tail with
      | nil =>
        obtain ⟨rfl, hnil⟩ := List.append_eq_nil_iff.1 hrest.symm
        refine ⟨[], ⟨(d, i), []⟩ :: ss, ?_, unopened_nil _, .cons hinner ?_ (unopened_nil _) hss, rfl⟩
        · simp [written, hnil]
        · simp [hnil]
      | cons b tail =>
        -- the white space that closes the segment begins its gap
        obtain rfl : tail = front ++ written ss := hrest
        have hb : isAsciiBlank b = true := hclosed b rfl
        have hmark : isMark b = false := by
          by_contra hm
          rcases isMark_iff.1 (by simpa using hm) with rfl | rfl <;> exact absurd hb (by decide)
        exact ⟨[], ⟨(d, i), b :: front⟩ :: ss, rfl, unopened_nil _,
          .cons hinner hclosed (unopened_cons.2 ⟨opening?_eq_none (.inl hmark), hfront⟩) hss, rfl⟩
    | case2 =>
      cases h
      exact ⟨[], [], rfl, unopened_nil _, .nil, rfl⟩
    | case3 c t hopen ih =>
      obtain ⟨front, ss, rfl, hfront, hss, rfl⟩ := ih h
      exact ⟨c :: front, ss, rfl, unopened_cons.2 ⟨hopen, hfront⟩, hss, rfl⟩
  · rintro ⟨front, ss, rfl, hfront, hss, rfl⟩
    rw [scan_of_unopened hfront, scan_written hss]

/-- Nothing stands in front of the first segment of a text that is accepted. -/
theorem segments_eq_ok_iff {t : Text} {xs : List (Direction × Text)} :
    segments t = .ok xs ↔ isSequence t = true ∧ ∃ ss, Cut ss ∧ written ss = t ∧ ss.map segment = xs := by
  rw [segments_eq_ok]
  refine and_congr_right fun hsequence => ?_
  rw [scan_eq_ok_iff]
  constructor
  · rintro ⟨front, ss, rfl, hfront, hss, hmap⟩
    obtain ⟨d, i, r, hopens⟩ := exists_opens hsequence
    have hnil : front = [] := by
      by_contra hne
      exact hfront front (List.suffix_refl _) hne d i r hopens
    exact ⟨ss, hss, by rw [hnil]; rfl, hmap⟩
  · rintro ⟨ss, hss, rfl, hmap⟩
    exact ⟨[], ss, rfl, unopened_nil _, hss, hmap⟩

/-! ## Putting the segments together again -/

/-- The text is the segments with nothing but white space between them. -/
def Restores (xs : List (Direction × Text)) (t : Text) : Prop :=
  ∃ ss : List Stretch, ss.map segment = xs ∧ written ss = t ∧ ∀ s ∈ ss, ∀ c ∈ s.gap, isAsciiBlank c = true

theorem Stretch.countP_written (p : CodePoint → Bool) (ss : List Stretch) :
    (written ss).countP p = ((ss.map segment).flatMap bracket).countP p + (ss.flatMap gap).countP p := by
  induction ss with
  | nil => rfl
  | cons s ss ih =>
    rw [written, List.map_cons, List.flatMap_cons, List.flatMap_cons]
    simp only [List.countP_append, ih]
    omega

theorem Stretch.countP_gaps {ss : List Stretch} : (ss.flatMap gap).countP (fun c => !isAsciiBlank c) = 0 ↔
    ∀ s ∈ ss, ∀ c ∈ s.gap, isAsciiBlank c = true := by
  rw [List.countP_eq_zero]
  simp only [List.mem_flatMap, Bool.not_eq_true', Bool.not_eq_false]
  exact ⟨fun h s hs c hc => h c ⟨s, hs, hc⟩, fun h c ⟨s, hs, hc⟩ => h s hs c hc⟩

theorem Restores.countP_eq {xs : List (Direction × Text)} {t : Text} (h : Restores xs t) :
    t.countP (fun c => !isAsciiBlank c) = (xs.flatMap bracket).countP fun c => !isAsciiBlank c := by
  obtain ⟨ss, rfl, rfl, hblank⟩ := h
  rw [countP_written, countP_gaps.2 hblank, Nat.add_zero]

/-- **A text comes back** from its segments exactly if all gaps are white space. -/
theorem Stretch.restores_iff {ss : List Stretch} :
    Restores (ss.map segment) (written ss) ↔ ∀ s ∈ ss, ∀ c ∈ s.gap, isAsciiBlank c = true := by
  constructor
  · intro h
    have hcount := h.countP_eq
    rw [countP_written] at hcount
    exact countP_gaps.1 (by omega)
  · intro h
    exact ⟨ss, rfl, rfl, h⟩

/-- **What is cut out of a configuration text** that is accepted, and what is not: the segments of its cut, with the gaps
between them.  The text comes back from its segments and white space exactly if the gaps are white space. -/
theorem segments_gaps (t : Text) (xs : List (Direction × Text)) : segments t = .ok xs ↔
    isSequence t = true ∧ ∃ ss, Cut ss ∧ written ss = t ∧ ss.map segment = xs ∧
      (Restores xs t ↔ ∀ s ∈ ss, ∀ c ∈ s.gap, isAsciiBlank c = true) := by
  rw [segments_eq_ok_iff]
  refine and_congr_right fun _ => exists_congr fun ss => and_congr_right fun _ => ?_
  constructor
  · rintro ⟨rfl, rfl⟩
    exact ⟨rfl, rfl, restores_iff⟩
  · rintro ⟨hwritten, hmap, _⟩
    exact ⟨hwritten, hmap⟩

/-- **A rule with a wrong mark is lost** between two others: the text is accepted without it. -/
theorem segments_strays :
    segments (.of ">[a] =[b] >[c]") = .ok [(.outbound, .of "a"), (.outbound, .of "c")] ∧
      ¬ Restores [(.outbound, .of "a"), (.outbound, .of "c")] (.of ">[a] =[b] >[c]") := by
  have hclosed : ∀ c ∈ (Text.of " =[b] >[c]").head?, isAsciiBlank c = true := by
    intro c hc
    obtain rfl : ' ' = c := Option.some.inj hc
    rfl
  have hpassed : Unopened (.of " =[b] ") (.of ">[c]") := unopened_of_noMark (Text.forall_mem_of_all (by decide)) _
  have hcut : Cut [⟨(.outbound, .of "a"), .of " =[b] "⟩, ⟨(.outbound, .of "c"), []⟩] :=
    .cons (by decide) hclosed hpassed (.cons (by decide) (by simp [written]) (unopened_nil _) .nil)
  exact ⟨segments_eq_ok_iff.2 ⟨by decide, _, hcut, rfl, rfl⟩, fun h => absurd h.countP_eq (by decide)⟩

end Direction

end RequestRules
