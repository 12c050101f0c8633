import RequestRules.Text

/-!
# Tables

A table lists names with what they stand for, in the order in which the names were put in.  `Table.put` keeps the place
of a name that is there already.  Each operation has its equation through `get?`.
-/

namespace RequestRules

/-- Names and what they stand for. -/
abbrev Table (α : Type) := List (Text × α)

namespace Table

variable {α β : Type}

def get? (t : Table α) (k : Text) : Option α := t.lookup k

def has (t : Table α) (k : Text) : Bool := (t.get? k).isSome

def put : Table α → Text → α → Table α
  | [], k, a => [(k, a)]
  | (l, b) :: t, k, a => if k = l then (k, a) :: t else (l, b) :: put t k a

def erase (t : Table α) (k : Text) : Table α := t.filter fun e => e.1 ≠ k

def names (t : Table α) : List Text := t.map (·.1)

@[simp] theorem get?_nil (k : Text) : get? ([] : Table α) k = none := rfl

theorem get?_cons (l k : Text) (b : α) (t : Table α) :
    get? ((l, b) :: t) k = if k = l then some b else get? t k := by
  unfold get?
  rw [List.lookup_cons]
  by_cases h : k = l
  · simp [h]
  · simp [h, beq_eq_false_iff_ne.2 h]

theorem get?_put (t : Table α) (k l : Text) (a : α) :
    (t.put k a).get? l = if l = k then some a else t.get? l := by
  induction t with
  | nil => simp [put, get?_cons]
  | cons e t ih =>
    obtain ⟨m, b⟩ := e
    by_cases h : k = m
    · subst h; by_cases hl : l = k <;> simp [put, get?_cons, hl]
    · by_cases hl : l = m
      · have : ¬ l = k := fun e => h (e ▸ hl)
        have hm : ¬ m = k := fun e => h e.symm
        simp [put, h, get?_cons, hl, hm]
      · simp [put, h, get?_cons, hl, ih]

theorem mem_put {t : Table α} {k : Text} {a : α} {e : Text × α} (h : e ∈ t.put k a) : e = (k, a) ∨ e ∈ t := by
  induction t with
  | nil => exact .inl (List.mem_singleton.1 h)
  | cons f t ih =>
    obtain ⟨l, b⟩ := f
    unfold put at h
    split at h
    · rcases List.mem_cons.1 h with rfl | h
      · exact .inl rfl
      · exact .inr (List.mem_cons_of_mem _ h)
    · rcases List.mem_cons.1 h with rfl | h
      · exact .inr List.mem_cons_self
      · exact (ih h).imp_right (List.mem_cons_of_mem _)

theorem put_ne_nil (t : Table α) (k : Text) (a : α) : t.put k a ≠ [] := by
  cases t with
  | nil => exact List.cons_ne_nil _ _
  | cons e t =>
    obtain ⟨l, b⟩ := e
    unfold put
    split <;> exact List.cons_ne_nil _ _

theorem names_put (t : Table α) (k : Text) (a : α) :
    (t.put k a).names = if k ∈ t.names then t.names else t.names ++ [k] := by
  induction t with
  | nil => rfl
  | cons e t ih =>
    obtain ⟨l, b⟩ := e
    have hcons : names ((l, b) :: t) = l :: names t := rfl
    unfold put
    rw [hcons]
    by_cases h : k = l
    · rw [if_pos h, if_pos (h ▸ List.mem_cons_self), h]
      rfl
    · have hmem : k ∈ l :: names t ↔ k ∈ names t := by simp [h]
      have htail : names ((l, b) :: put t k a) = l :: (if k ∈ names t then names t else names t ++ [k]) := by
        rw [← ih]
        rfl
      rw [if_neg h, htail]
      by_cases hk : k ∈ names t
      · rw [if_pos hk, if_pos (hmem.2 hk)]
      · rw [if_neg hk, if_neg fun h => hk (hmem.1 h), List.cons_append]

theorem isEmpty_iff (t : Table α) : t.isEmpty = true ↔ ∀ k, t.get? k = none := by
  cases t with
  | nil => exact iff_of_true rfl get?_nil
  | cons e t =>
    obtain ⟨l, b⟩ := e
    refine iff_of_false (by simp) fun h => ?_
    have hl := h l
    rw [get?_cons, if_pos rfl] at hl
    exact absurd hl (by simp)

theorem get?_map (t : Table α) (f : α → β) (k : Text) :
    Table.get? (t.map fun (l, a) => (l, f a)) k = (t.get? k).map f := by
  induction t with
  | nil => rfl
  | cons e t ih =>
    obtain ⟨l, a⟩ := e
    rw [List.map_cons, get?_cons, get?_cons, ih]
    split <;> rfl

theorem get?_erase (t : Table α) (k l : Text) :
    (t.erase k).get? l = if l = k then none else t.get? l := by
  induction t with
  | nil => simp [erase]
  | cons e t ih =>
    obtain ⟨m, b⟩ := e
    by_cases h : m = k
    · subst h
      by_cases hl : l = m <;> simp_all [erase, get?_cons]
    · by_cases hl : l = m
      · subst hl; simp [erase, h, get?_cons]
      · simp_all [erase, get?_cons]

theorem has_put (t : Table α) (k l : Text) (a : α) : (t.put k a).has l = true ↔ l = k ∨ t.has l = true := by
  unfold has
  rw [get?_put]
  by_cases h : l = k <;> simp [h]

theorem has_erase (t : Table α) (k l : Text) : (t.erase k).has l = true ↔ ¬ l = k ∧ t.has l = true := by
  unfold has
  rw [get?_erase]
  by_cases h : l = k <;> simp [h]

theorem names_map (t : Table α) (f : α → β) : names (t.map fun (l, a) => (l, f a)) = names t := by
  unfold names
  rw [List.map_map]
  rfl

theorem names_erase (t : Table α) (k : Text) : (t.erase k).names = t.names.filter (· ≠ k) := by
  unfold names erase
  rw [List.filter_map]
  rfl

theorem get?_foldl_erase (t : Table α) (ks : List Text) (l : Text) :
    (ks.foldl erase t).get? l = if l ∈ ks then none else t.get? l := by
  induction ks generalizing t with
  | nil => simp
  | cons k ks ih =>
    rw [List.foldl_cons, ih, get?_erase]
    by_cases hk : l = k <;> simp [hk]

theorem foldl_erase (t : Table α) (ks : List Text) : ks.foldl erase t = t.filter fun e => e.1 ∉ ks := by
  induction ks generalizing t with
  | nil => exact (List.filter_eq_self.2 (by simp)).symm
  | cons k ks ih =>
    rw [List.foldl_cons, ih, erase, List.filter_filter]
    refine List.filter_congr fun e _ => ?_
    by_cases hk : e.1 = k <;> simp [hk]

end Table

end RequestRules
