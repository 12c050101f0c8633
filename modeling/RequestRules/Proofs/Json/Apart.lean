import RequestRules.Proofs.Json.Layout

/-!
# JSON texts keep values apart

With an indent that is not blank a written value is no JSON, but its text still says what the value is: values of one text
are the same when their pairs of surrogates are joined (`Json.joined_eq_of_render`), whatever the indent is.  A written
value ends by itself, so the texts of containers are compared part by part (`Json.apart`).
-/

namespace RequestRules

namespace Json

variable {indent : Option Text} {depth : Nat}

/-! ## First characters -/

/-- A container is known by its bracket. -/
theorem container_of_opening {j : Json} (h : Exact j) {c : CodePoint} {r t : Text}
    (ht : renderAt indent depth j ++ r = c :: t) :
    (c = '[' → ∃ xs, j = list xs) ∧ (c = '\x7b' → ∃ fs, j = object fs) := by
  cases h with
  | null =>
    obtain rfl : _ = c := (List.cons.inj ht).1
    exact ⟨fun hc => absurd hc (by decide), fun hc => absurd hc (by decide)⟩
  | bool b =>
    cases b with
    | true =>
      obtain rfl : _ = c := (List.cons.inj ht).1
      exact ⟨fun hc => absurd hc (by decide), fun hc => absurd hc (by decide)⟩
    | false =>
      obtain rfl : _ = c := (List.cons.inj ht).1
      exact ⟨fun hc => absurd hc (by decide), fun hc => absurd hc (by decide)⟩
  | int n =>
    obtain ⟨d, ds, hint, hd⟩ := exists_cons_ofInt n
    rw [renderAt, hint] at ht
    obtain rfl : d = c := (List.cons.inj ht).1
    have hne : ∀ a : CodePoint, a.isDigit = false → a ≠ '-' → d ≠ a := by
      rintro a ha hminus rfl
      exact hd.elim (fun h => absurd (ha.symm.trans h) Bool.false_ne_true) hminus
    exact ⟨fun hc => absurd hc (hne '[' rfl (by decide)), fun hc => absurd hc (hne '\x7b' rfl (by decide))⟩
  | text s =>
    obtain rfl : _ = c := (List.cons.inj ht).1
    exact ⟨fun hc => absurd hc (by decide), fun hc => absurd hc (by decide)⟩
  | @list xs items =>
    refine ⟨fun _ => ⟨xs, rfl⟩, ?_⟩
    cases xs <;> obtain rfl : _ = c := (List.cons.inj ht).1 <;> exact fun hc => absurd hc (by decide)
  | @object fs names values =>
    refine ⟨?_, fun _ => ⟨fs, rfl⟩⟩
    cases fs <;> obtain rfl : _ = c := (List.cons.inj ht).1 <;> exact fun hc => absurd hc (by decide)

/-- An empty container is closed at once. -/
theorem cons_ne_newline {c d : CodePoint} (hc : c ≠ '\n') (hd : c ≠ d) (r t : Text) :
    c :: r ≠ newline indent depth ++ d :: t := by
  intro h
  cases indent with
  | none => exact hd (List.cons.inj h).1
  | some g => exact hc (List.cons.inj h).1

/-- A text ends at its closing quote. -/
theorem quote_append_inj {s t u v : Text} (h : quote s ++ u = quote t ++ v) : s.joined = t.joined ∧ u = v := by
  have hread : ∀ t u, readValue? 1 (quote t ++ u) = some (text t.joined, u) := fun t u => readValue?_text t
  have heq := (hread s u).symm.trans (h ▸ hread t v)
  obtain ⟨htext, hrest⟩ := Prod.mk.inj (Option.some.inj heq)
  exact ⟨Json.text.inj htext, hrest⟩

theorem endsNumber_comma (t : Text) : EndsNumber (comma indent depth ++ t) := by
  intro a ha
  cases indent <;>
  · obtain rfl : .char ',' = a := Option.some.inj ha
    exact .inl rfl

/-! ## Containers -/

section Containers

variable {α β : Type} {w : α → Text} {v : α → β} {xs ys : List α} {opening close : CodePoint} {r s : Text}

/-- What is written of a part, and then a text, is not written of a part with another value. -/
def Telling (w : α → Text) (v : α → β) (xs ys : List α) : Prop := ∀ x ∈ xs, ∀ y ∈ ys, ∀ r s, EndsNumber r → EndsNumber s →
  w x ++ r = w y ++ s → v x = v y ∧ r = s

/-- What stands behind a part of a container: the parts that follow and the closing bracket. -/
def behind (indent : Option Text) (depth : Nat) (close : CodePoint) (ts : List Text) (r : Text) : Text :=
  ts.flatMap (fun u => comma indent (depth + 1) ++ u) ++ (newline indent depth ++ close :: r)

theorem behind_cons (t : Text) (ts : List Text) (r : Text) :
    behind indent depth close (t :: ts) r = comma indent (depth + 1) ++ (t ++ behind indent depth close ts r) := by
  simp only [behind, List.flatMap_cons, List.append_assoc]

theorem enclosed_cons (t : Text) (ts : List Text) (r : Text) : enclosed indent depth opening close (t :: ts) ++ r =
    opening :: (newline indent (depth + 1) ++ (t ++ behind indent depth close ts r)) := by
  simp only [enclosed, behind, List.cons_append, List.append_assoc, List.nil_append]

theorem endsNumber_behind (hclose : close = ']' ∨ close = '\x7d') (ts : List Text) (r : Text) :
    EndsNumber (behind indent depth close ts r) := by
  cases ts with
  | nil => exact endsNumber_newline indent depth hclose r
  | cons t ts =>
    rw [behind_cons]
    exact endsNumber_comma _

/-- Behind the last part no further one stands. -/
theorem behind_nil_ne_cons (hclose : close = ']' ∨ close = '\x7d') (t : Text) (ts : List Text) (r s : Text) :
    behind indent depth close [] r ≠ behind indent depth close (t :: ts) s := by
  rw [behind_cons]
  intro h
  cases indent with
  | none =>
    have hhead : close = ',' := (List.cons.inj h).1
    rcases hclose with rfl | rfl <;> exact absurd hhead (by decide)
  | some g => exact absurd (List.cons.inj h).1 (by decide)

theorem behind_apart (hclose : close = ']' ∨ close = '\x7d') (h : Telling w v xs ys)
    (heq : behind indent depth close (xs.map w) r = behind indent depth close (ys.map w) s) :
    xs.map v = ys.map v ∧ r = s := by
  induction xs generalizing ys with
  | nil =>
    cases ys with
    | nil => exact ⟨rfl, (List.cons.inj (List.append_cancel_left heq)).2⟩
    | cons y ys => exact absurd heq (behind_nil_ne_cons hclose _ _ _ _)
  | cons x xs ih =>
    cases ys with
    | nil => exact absurd heq.symm (behind_nil_ne_cons hclose _ _ _ _)
    | cons y ys =>
      rw [List.map_cons, List.map_cons, behind_cons, behind_cons] at heq
      obtain ⟨hx, hrest⟩ := h x List.mem_cons_self y List.mem_cons_self _ _ (endsNumber_behind hclose _ _)
        (endsNumber_behind hclose _ _) (List.append_cancel_left heq)
      obtain ⟨hxs, hrs⟩ := ih (fun z hz u hu => h z (List.mem_cons_of_mem x hz) u (List.mem_cons_of_mem y hu)) hrest
      exact ⟨List.cons_eq_cons.2 ⟨hx, hxs⟩, hrs⟩

/-- **Containers of one text** have parts of the same values.  No part begins like the end of an empty container. -/
theorem enclosed_apart (hclose : close = ']' ∨ close = '\x7d') (h : Telling w v xs ys)
    (hstart : ∀ x, x ∈ xs ∨ x ∈ ys → ∃ c t, w x = c :: t ∧ close ≠ c)
    (heq : enclosed indent depth opening close (xs.map w) ++ r = enclosed indent depth opening close (ys.map w) ++ s) :
    xs.map v = ys.map v ∧ r = s := by
  have hempty : ∀ x, x ∈ xs ∨ x ∈ ys → ∀ (t u : Text) (ts : List Text),
      opening :: close :: t ≠ opening :: (newline indent (depth + 1) ++ (w x ++ behind indent depth close ts u)) := by
    intro x hx t u ts hcons
    obtain ⟨c, t', hw, hc⟩ := hstart x hx
    rw [hw] at hcons
    refine cons_ne_newline ?_ hc _ _ (List.cons.inj hcons).2
    rcases hclose with rfl | rfl <;> decide
  cases xs with
  | nil =>
    cases ys with
    | nil => exact ⟨rfl, (List.cons.inj (List.cons.inj heq).2).2⟩
    | cons y ys =>
      rw [List.map_cons, enclosed_cons] at heq
      exact absurd heq (hempty y (.inr List.mem_cons_self) r s _)
  | cons x xs =>
    cases ys with
    | nil =>
      rw [List.map_cons, enclosed_cons] at heq
      exact absurd heq.symm (hempty x (.inl List.mem_cons_self) s r _)
    | cons y ys =>
      rw [List.map_cons, List.map_cons, enclosed_cons, enclosed_cons] at heq
      obtain ⟨hx, hrest⟩ := h x List.mem_cons_self y List.mem_cons_self _ _ (endsNumber_behind hclose _ _)
        (endsNumber_behind hclose _ _) (List.append_cancel_left (List.cons.inj heq).2)
      obtain ⟨hxs, hrs⟩ := behind_apart hclose
        (fun z hz u hu => h z (List.mem_cons_of_mem x hz) u (List.mem_cons_of_mem y hu)) hrest
      exact ⟨List.cons_eq_cons.2 ⟨hx, hxs⟩, hrs⟩

end Containers

/-- The fields that are made of some depend on their joined names and values. -/
theorem joinedFields_eq_foldl (acc fs : List (Text × Json)) : joinedFields acc fs =
    (fs.map fun f => (f.1.joined, f.2.joined)).foldl (fun acc f => setField acc f.1 f.2) acc := by
  induction fs generalizing acc with
  | nil => rfl
  | cons f fs ih => exact ih _

/-! ## Values -/

/-- What is written of the value, and then a text, is not written of another value. -/
def Apart (indent : Option Text) (i : Json) : Prop := ∀ {j : Json} {depth : Nat} {r s : Text}, Exact j → EndsNumber r →
  EndsNumber s → renderAt indent depth i ++ r = renderAt indent depth j ++ s → i.joined = j.joined ∧ r = s

/-- Values without parts are read. -/
theorem apart_of_not_container {i : Json} (hi : Exact i) (hcontainer : ¬ i.IsContainer) : Apart indent i := by
  intro j depth r s hj hr hs heq
  have hother : ¬ j.IsContainer := by
    cases j with
    | list xs =>
      obtain ⟨t, ht⟩ : ∃ t, renderAt indent depth (list xs) ++ s = .char '[' :: t := by cases xs <;> exact ⟨_, rfl⟩
      obtain ⟨ys, rfl⟩ := (container_of_opening hi (heq.trans ht)).1 rfl
      exact absurd trivial hcontainer
    | object fs =>
      obtain ⟨t, ht⟩ : ∃ t, renderAt indent depth (object fs) ++ s = .char '\x7b' :: t := by cases fs <;> exact ⟨_, rfl⟩
      obtain ⟨gs, rfl⟩ := (container_of_opening hi (heq.trans ht)).2 rfl
      exact absurd trivial hcontainer
    | _ => exact id
  have hleft := comesBack_of_not_container hi hcontainer indent depth
    ((renderAt indent depth i).length + (renderAt indent depth j).length) r (Nat.le_add_right _ _) hr
  have hright := comesBack_of_not_container hj hother indent depth
    ((renderAt indent depth i).length + (renderAt indent depth j).length) s (Nat.le_add_left _ _) hs
  rw [heq, hright] at hleft
  obtain ⟨hjoined, hrest⟩ := Prod.mk.inj (Option.some.inj hleft)
  exact ⟨hjoined.symm, hrest.symm⟩

/-- **The texts of values are apart**, and each ends by itself. -/
theorem apart {i : Json} (hi : Exact i) (indent : Option Text) : Apart indent i := by
  induction hi with
  | null => exact apart_of_not_container .null id
  | bool b => exact apart_of_not_container (.bool b) id
  | int n => exact apart_of_not_container (.int n) id
  | text t => exact apart_of_not_container (.text t) id
  | @list xs items ih =>
    intro j depth r s hj hr hs heq
    obtain ⟨t, ht⟩ : ∃ t, renderAt indent depth (list xs) ++ r = .char '[' :: t := by cases xs <;> exact ⟨_, rfl⟩
    obtain ⟨ys, rfl⟩ := (container_of_opening hj (heq.symm.trans ht)).1 rfl
    cases hj with
    | list hys =>
      have hstart : ∀ x, x ∈ xs ∨ x ∈ ys → ∃ c t, renderAt indent (depth + 1) x = c :: t ∧ ']' ≠ c := by
        intro x hx
        obtain ⟨c, t, hx, hc⟩ := exists_start (hx.elim (items x) (hys x)) indent (depth + 1)
        exact ⟨c, t, hx, hc.2.symm⟩
      rw [renderAt_list, renderAt_list] at heq
      obtain ⟨hmap, hrs⟩ := enclosed_apart (.inl rfl) (fun x hx y hy _ _ => ih x hx (hys y hy)) hstart heq
      rw [joined_list, joined_list, hmap]
      exact ⟨rfl, hrs⟩
  | @object fs names values ih =>
    intro j depth r s hj hr hs heq
    obtain ⟨t, ht⟩ : ∃ t, renderAt indent depth (object fs) ++ r = .char '\x7b' :: t := by cases fs <;> exact ⟨_, rfl⟩
    obtain ⟨gs, rfl⟩ := (container_of_opening hj (heq.symm.trans ht)).2 rfl
    cases hj with
    | object gnames hgs =>
      have htells : Telling (fun f => field f.1 (renderAt indent (depth + 1) f.2))
          (fun f => (f.1.joined, f.2.joined)) fs gs := by
        intro f hf g hg r s hr hs heq
        simp only [field, List.append_assoc] at heq
        obtain ⟨hname, hvalue⟩ := quote_append_inj heq
        obtain ⟨hjoined, hrs⟩ := ih f hf (hgs g hg) hr hs (List.append_cancel_left hvalue)
        exact ⟨Prod.ext hname hjoined, hrs⟩
      rw [renderAt_object, renderAt_object] at heq
      obtain ⟨hmap, hrs⟩ := enclosed_apart (.inr rfl) htells (fun _ _ => ⟨_, _, rfl, by decide⟩) heq
      rw [joined, joined, joinedFields_eq_foldl, joinedFields_eq_foldl, hmap]
      exact ⟨rfl, hrs⟩

/-- **Values of one text** are the same with their pairs of surrogates joined, whatever the indent is. -/
theorem joined_eq_of_render {i j : Json} (hi : Exact i) (hj : Exact j) {indent : Option Text}
    (h : render indent i = render indent j) : i.joined = j.joined := by
  have hends : EndsNumber [] := fun _ hc => nomatch hc
  have hbehind : renderAt indent 0 i ++ [] = renderAt indent 0 j ++ [] := congrArg (· ++ []) h
  exact (apart hi indent hj hends hends hbehind).1

end Json

end RequestRules
