import RequestRules.Proofs.Grammar.RoundTrip
import RequestRules.Proofs.Outcome

/-!
# Configuration texts one behind the other

Behind a text that ends with a closing bracket, and a white space, a second text is read as it is alone: the segments are
those of both texts (`Direction.segments_append`), and the rules, too (`Segment.readAll_append`).  The reason is that in
a text on one line that ends with a closing bracket every segment that is opened is closed, and what closes it does not
depend on what follows (`Direction.closing?_seam`).
-/

namespace RequestRules

namespace Direction

/-- **What a configuration text looks like.** -/
theorem isSequence_iff {t : Text} : isSequence t = true ↔
    ∃ m inner tail, t = m :: .char '[' :: (inner ++ .char ']' :: tail) ∧ isMark m = true ∧ .char '\n' ∉ inner ∧
      (tail = [] ∨ ∃ b, tail = [b] ∧ isAsciiBlank b = true) := by
  constructor
  · intro h
    unfold isSequence at h
    split at h
    · next m s =>
      rw [Bool.and_eq_true] at h
      obtain ⟨hm, h⟩ := h
      split at h
      · next inner hs =>
        have hs' : s = inner.reverse ++ [.char ']'] := by simpa using congrArg List.reverse hs
        exact ⟨m, inner.reverse, [], by rw [hs'], hm, by simpa using h, .inl rfl⟩
      · next b inner _ hs =>
        have hs' : s = inner.reverse ++ [.char ']', b] := by simpa using congrArg List.reverse hs
        obtain ⟨hb, hline⟩ : isAsciiBlank b = true ∧ .char '\n' ∉ inner := by simpa using h
        exact ⟨m, inner.reverse, [b], by rw [hs'], hm, by simpa using hline, .inr ⟨b, rfl, hb⟩⟩
      · exact absurd h (by simp)
    · exact absurd h (by simp)
  · rintro ⟨m, inner, tail, rfl, hm, hline, rfl | ⟨b, rfl, hb⟩⟩
    · simp [isSequence, hm, hline]
    · -- the match takes a bracket at the end for the closing one
      have hbracket : b = ']' → False := by
        rintro rfl
        exact absurd hb (by decide)
      simp [isSequence, hm, hline, hb]

section Seam

variable {w : CodePoint}

def Closed (t : Text) : Prop := .char '\n' ∉ t ∧ t.getLast? = some (.char ']')

theorem Closed.ne_nil {t : Text} (h : Closed t) : t ≠ [] := by
  rintro rfl
  exact absurd h.2 (by simp)

theorem Closed.tail {c : CodePoint} {t : Text} (h : Closed (c :: t)) : (t = [] ∧ c = ']') ∨ Closed t := by
  obtain ⟨hline, hlast⟩ := h
  cases t with
  | nil => exact .inl ⟨rfl, by simpa using hlast⟩
  | cons d t => exact .inr ⟨fun hn => hline (List.mem_cons_of_mem _ hn), by simpa using hlast⟩

/-- What a text and one behind a white space become when something is taken off the front of the first; the white space
goes with the end of it. -/
def seam (w : CodePoint) (r b : Text) : Text := if r = [] then b else r ++ w :: b

/-- **Segments are closed by their own text.**  In a text on one line that ends with a closing bracket a segment that is
opened is closed, and at the same place if a white space and another text follow. -/
theorem closing?_seam {t : Text} (ht : Closed t) (hw : isAsciiBlank w = true) (b : Text) :
    ∃ i r, closing? t = some (i, r) ∧ closing? (t ++ w :: b) = some (i, seam w r b) ∧ (r = [] ∨ Closed r) := by
  induction t with
  | nil => exact absurd rfl ht.ne_nil
  | cons c t ih =>
    have hc : c ≠ '\n' := fun hc => ht.1 (hc ▸ List.mem_cons_self)
    rcases ht.tail with ⟨rfl, rfl⟩ | htail
    · exact ⟨[], [], rfl, by simp [closing?, hw, seam], .inl rfl⟩
    · obtain ⟨i, r, hclose, hseam, hr⟩ := ih htail
      obtain ⟨d, t, rfl⟩ := List.exists_cons_of_ne_nil htail.ne_nil
      rw [List.cons_append, List.cons_append]
      rw [List.cons_append] at hseam
      by_cases hclosed : c = ']' ∧ isAsciiBlank d = true
      · -- the bracket closes here, before the last one
        obtain ⟨rfl, hd⟩ := hclosed
        have hdn : t ≠ [] := by
          rintro rfl
          have hlast : d = ']' := by simpa using htail.2
          rw [hlast] at hd
          exact absurd hd (by decide)
        have hrest : Closed t := htail.tail.resolve_left fun h => hdn h.1
        exact ⟨[], t, by simp [closing?, hd], by simp [closing?, hd, seam, hdn], .inr hrest⟩
      · have hstep : ∀ s, closing? (c :: d :: s) = (closing? (d :: s)).map fun x => (c :: x.1, x.2) := by
          intro s
          rw [closing?, if_neg hc]
          by_cases hcb : c = ']'
          · rw [if_pos hcb]
            exact if_neg fun hd => hclosed ⟨hcb, hd⟩
          · rw [if_neg hcb]
        exact ⟨c :: i, r, by rw [hstep, hclose]; rfl, by rw [hstep, hseam]; rfl, hr⟩

theorem opening?_eq_none {c : CodePoint} {t : Text} (h : isMark c = false ∨ t.head? ≠ some (.char '[')) :
    opening? (c :: t) = none := by
  unfold opening?
  split
  · next heq =>
    cases heq
    rcases h with h | h
    · rw [if_neg (by simp [h])]
    · exact absurd rfl h
  · rfl

/-- A text that opens a segment at its front does so if another text follows, and no other text does. -/
theorem opening?_seam {t : Text} (ht : Closed t) (hw : isAsciiBlank w = true) (b : Text) :
    (opening? t = none ∧ opening? (t ++ w :: b) = none) ∨
      ∃ c i r, opening? t = some (c, i, r) ∧ opening? (t ++ w :: b) = some (c, i, seam w r b) ∧ (r = [] ∨ Closed r) := by
  obtain ⟨c, t, rfl⟩ := List.exists_cons_of_ne_nil ht.ne_nil
  rcases ht.tail with ⟨rfl, rfl⟩ | htail
  · exact .inl ⟨opening?_eq_none (.inl rfl), opening?_eq_none (.inl rfl)⟩
  · obtain ⟨d, t, rfl⟩ := List.exists_cons_of_ne_nil htail.ne_nil
    by_cases hopen : isMark c = true ∧ d = '['
    · obtain ⟨hm, rfl⟩ := hopen
      have hrest : Closed t := htail.tail.resolve_left fun h => absurd h.2 (by decide)
      obtain ⟨i, r, hclose, hseam, hr⟩ := closing?_seam hrest hw b
      exact .inr ⟨c, i, r, by simp [opening?, hm, hclose], by simp [opening?, hm, hseam], hr⟩
    · have hnone : isMark c = false ∨ d ≠ '[' := by
        by_cases hm : isMark c = true
        · exact .inr fun hd => hopen ⟨hm, hd⟩
        · exact .inl (by simpa using hm)
      exact .inl ⟨opening?_eq_none (by simpa using hnone), opening?_eq_none (by simpa using hnone)⟩

theorem scan_cons {c : CodePoint} {t : Text} (h : opening? (c :: t) = none) : scan (c :: t) = scan t := by
  rw [scan]
  split
  · next h' =>
    rw [h] at h'
    exact absurd h' (by simp)
  · rfl

/-- The segments of a text that ends with a closing bracket come before those of what follows. -/
theorem scan_seam {t b : Text} {xs ys : List (Direction × Text)} (ht : Closed t) (hw : isAsciiBlank w = true)
    (hxs : scan t = .ok xs) (hys : scan b = .ok ys) : scan (t ++ w :: b) = .ok (xs ++ ys) := by
  have hmark : isMark w = false := by
    simp only [isAsciiBlank, decide_eq_true_eq] at hw
    rcases hw with rfl | rfl | rfl | rfl | rfl | rfl <;> rfl
  induction hn : t.length using Nat.strong_induction_on generalizing t xs with
  | _ n ih =>
    subst hn
    rcases opening?_seam ht hw b with ⟨hnone, hnone'⟩ | ⟨c, i, r, hopen, hopen', hr⟩
    · obtain ⟨c, t, rfl⟩ := List.exists_cons_of_ne_nil ht.ne_nil
      rw [scan_cons hnone] at hxs
      rw [List.cons_append] at hnone' ⊢
      rw [scan_cons hnone']
      rcases ht.tail with ⟨rfl, _⟩ | htail
      · have hnil : xs = [] := by
          rw [scan] at hxs
          exact (Except.ok.inj hxs).symm
        rw [hnil, List.nil_append, List.nil_append, scan_cons (opening?_eq_none (.inl hmark)), hys]
      · exact ih t.length (by simp) htail hxs rfl
    · rw [scan_of_opening? hopen] at hxs
      obtain ⟨d, hd, hxs⟩ := Outcome.bind_eq_ok.1 hxs
      obtain ⟨zs, hzs, hxs⟩ := Outcome.bind_eq_ok.1 hxs
      cases hxs
      have hrest : scan (seam w r b) = .ok (zs ++ ys) := by
        rcases hr with rfl | hclosed
        · have hnil : zs = [] := by
            rw [scan] at hzs
            exact (Except.ok.inj hzs).symm
          rw [seam, if_pos rfl, hnil, hys]
          rfl
        · rw [seam, if_neg hclosed.ne_nil]
          exact ih r.length (opening?_length hopen) hclosed hzs rfl
      rw [scan_of_opening? hopen', hd, hrest]
      rfl

variable {a b : Text}

/-- A configuration text that ends with a closing bracket is on one line. -/
theorem closed_of_isSequence (ha : isSequence a = true) (hend : a.getLast? = some (.char ']')) : Closed a := by
  obtain ⟨m, inner, tail, rfl, hm, hline, rfl | ⟨b, rfl, hb⟩⟩ := isSequence_iff.1 ha
  · refine ⟨?_, hend⟩
    have hmn : '\n' ≠ m := by
      rintro rfl
      exact absurd hm (by decide)
    simp [hmn, hline]
  · -- the white space at the end is no bracket
    have hlast : b = ']' := by simpa [List.getLast?_cons, List.getLast?_append] using hend
    rw [hlast] at hb
    exact absurd hb (by decide)

theorem isSequence_append (ha : isSequence a = true) (hb : isSequence b = true) (hend : a.getLast? = some (.char ']'))
    (hw : w ≠ '\n') : isSequence (a ++ w :: b) = true := by
  have hline : .char '\n' ∉ a := (closed_of_isSequence ha hend).1
  obtain ⟨m, inner, tail, rfl, hm, hinner, _⟩ := isSequence_iff.1 ha
  obtain ⟨m', inner', tail', rfl, hm', hinner', htail'⟩ := isSequence_iff.1 hb
  have htail : .char '\n' ∉ tail := fun hn => hline (by simp [hn])
  have hmark : '\n' ≠ m' := by
    rintro rfl
    exact absurd hm' (by decide)
  refine isSequence_iff.2 ⟨m, (inner ++ .char ']' :: tail) ++ w :: m' :: '[' :: inner', tail', by simp, hm, ?_, htail'⟩
  simp [hinner, htail, hw.symm, hmark, hinner']

/-- **Configuration texts one behind the other** are cut as each is alone. -/
theorem segments_append {xs ys : List (Direction × Text)} (ha : segments a = .ok xs) (hb : segments b = .ok ys)
    (hend : a.getLast? = some (.char ']')) (hw : isAsciiBlank w = true) (hn : w ≠ '\n') :
    segments (a ++ w :: b) = .ok (xs ++ ys) := by
  unfold segments at ha hb
  split_ifs at ha hb with hsa hsb
  rw [segments, if_pos (isSequence_append hsa hsb hend hn)]
  exact scan_seam (closed_of_isSequence hsa hend) hw ha hb

end Seam

end Direction

namespace Segment

variable {a b : Text} {w : CodePoint}

/-- The rules of both texts are read one after the other, and the first fault of either is that of both together. -/
theorem readAll_append {xs ys : List (Direction × Text)} (ha : Direction.segments a = .ok xs)
    (hb : Direction.segments b = .ok ys) (hend : a.getLast? = some (.char ']')) (hw : isAsciiBlank w = true) (hn : w ≠ '\n') :
    readAll (a ++ w :: b) = do
      let ss ← readAll a
      let ts ← readAll b
      return ss ++ ts := by
  have hab := Direction.segments_append ha hb hend hw hn
  have hread : ∀ {t zs}, Direction.segments t = .ok zs → readAll t = zs.mapM read := by
    intro t zs ht
    rw [readAll, ht]
    rfl
  rw [hread ha, hread hb, hread hab, List.mapM_append]

end Segment

end RequestRules
