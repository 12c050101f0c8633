import RequestRules.Proofs.Outcome
import RequestRules.Proofs.Setting
import RequestRules.Schema

/-!
# What a schema lets through

`Schema.Accepts` says which settings are valid for a schema, and what they are with the values that are filled in.  Where a
complaint would be, and in which order things are looked at, does not count for that.

* `checkAt_eq_ok` — a check gives exactly this setting;
* `Accepts.again` — with the values that are filled in a setting is valid again, and then nothing is missing any more.
-/

namespace RequestRules

namespace Schema

variable {path : List Setting} {v w : Setting}

theorem settle_ok {cs : List Complaint} : settle cs v = .ok w ↔ cs = [] ∧ v = w := by
  cases cs with
  | nil => simp [settle, Complaints.ofList?]
  | cons c cs => simp [settle, Complaints.ofList?]

/-! ## Valid settings -/

def Complete (fields : List (Rule × Schema)) (es : List (Setting × Setting)) : Prop :=
  ∀ f ∈ fields, f.1.required = true → (Setting.find? (.text f.1.name) es).isSome

mutual
/-- The first setting is valid, and with the values that are filled in it is the second one. -/
def Accepts : Schema → Setting → Setting → Prop
  | .int, v, w => w = v ∧ v.int?.isSome
  | .text, v, w => w = v ∧ ∃ t, v = .text t
  | .bool, v, w => w = v ∧ ∃ b, v = .bool b
  | .choice words, v, w => w = v ∧ ∃ t ∈ words, v = .text t
  | .list item, v, w => ∃ xs ys, v = .list xs ∧ w = .list ys ∧ List.Forall₂ (fun x y => Accepts item x y) xs ys
  | .map fields isOpen, v, w => ∃ es fs, v = .map es ∧ w = .map fs ∧ Complete fields (fill fields es) ∧
      List.Forall₂ (fun e f => f.1 = e.1 ∧ AcceptsValue fields isOpen e.1 e.2 f.2) (fill fields es) fs
/-- The value of a key is valid for the rule for the key, or there is none and the map is open. -/
def AcceptsValue : List (Rule × Schema) → Bool → Setting → Setting → Setting → Prop
  | [], isOpen, _, v, w => w = v ∧ isOpen = true
  | (r, s) :: fields, isOpen, k, v, w =>
    (k.isText r.name = true ∧ Accepts s v w) ∨ (k.isText r.name = false ∧ AcceptsValue fields isOpen k v w)
end

/-- Where no key has two rules, their order does not count. -/
theorem acceptsValue_iff {fields : List (Rule × Schema)} (h : fields.Pairwise fun f g => f.1.name ≠ g.1.name)
    {isOpen : Bool} {k : Setting} : AcceptsValue fields isOpen k v w ↔
      (∀ f ∈ fields, k = .text f.1.name → Accepts f.2 v w) ∧
        ((∀ f ∈ fields, k ≠ .text f.1.name) → w = v ∧ isOpen = true) := by
  induction fields with
  | nil => simp [AcceptsValue]
  | cons f fields ih =>
    obtain ⟨r, s⟩ := f
    obtain ⟨hr, h⟩ := List.pairwise_cons.1 h
    rw [AcceptsValue, ih h, List.forall_mem_cons, List.forall_mem_cons, ← Bool.not_eq_true, Setting.isText_iff]
    by_cases hk : k = .text r.name
    · simpa [hk] using fun _ r' s' hf hname => absurd hname (hr (r', s') hf)
    · simp [hk]

/-! ## Checks -/

section Checks

variable {fields : List (Rule × Schema)} {es fs : List (Setting × Setting)} {isOpen : Bool}

theorem checkItems_eq_ok {check : List Setting → Setting → Outcome} {accepts : Setting → Setting → Prop}
    (h : ∀ here x y, check here x = .ok y ↔ accepts x y) {i : Nat} {before : List Complaint} {xs ys : List Setting} :
    checkItems check path i before xs = .ok ([], ys) ↔ before = [] ∧ List.Forall₂ accepts xs ys := by
  induction xs generalizing i before ys with
  | nil => simp [checkItems, eq_comm]
  | cons x xs ih =>
    rw [List.forall₂_cons_left_iff, checkItems]
    simp only [← h (path ++ [.int i])]
    cases check (path ++ [.int i]) x with
    | ok y =>
      rw [Outcome.bind_eq_ok]
      constructor
      · rintro ⟨⟨cs, zs⟩, hrest, heq⟩
        cases heq
        obtain ⟨hbefore, hall⟩ := ih.1 hrest
        exact ⟨hbefore, y, zs, rfl, hall, rfl⟩
      · rintro ⟨hbefore, z, zs, hz, hall, rfl⟩
        cases hz
        exact ⟨([], zs), ih.2 ⟨hbefore, hall⟩, rfl⟩
    | error c =>
      -- a complaint is kept
      refine iff_of_false ?_ (by simp)
      simp only
      split_ifs
      · simp
      · simp [ih]

theorem checkEntries_eq_nil {check : List Setting → Setting → Setting → Option Outcome}
    {accepts : Setting → Setting → Setting → Prop}
    (h : ∀ here k v w, (check here k v).elim (w = v ∧ isOpen = true) (· = .ok w) ↔ accepts k v w) :
    checkEntries check path isOpen es = ([], fs) ↔ List.Forall₂ (fun e f => f.1 = e.1 ∧ accepts e.1 e.2 f.2) es fs := by
  induction es generalizing fs with
  | nil => simp [checkEntries, eq_comm]
  | cons e es ih =>
    obtain ⟨k, v⟩ := e
    rw [List.forall₂_cons_left_iff, checkEntries]
    simp only [← h (path ++ [k]) k v, ← ih]
    rcases checkEntries check path isOpen es with ⟨cs, gs⟩
    rcases check (path ++ [k]) k v with _ | (c | w)
    · cases isOpen with
      | false => simp
      | true => simpa [and_assoc] using fun _ => eq_comm
    · simp [Complaints.toList]
    · simpa using fun _ => eq_comm

theorem missing_eq_nil : missing path fields es = [] ↔ Complete fields es := by
  unfold missing Complete
  rw [List.map_eq_nil_iff, List.filter_eq_nil_iff]
  refine forall₂_congr fun f _ => ?_
  simp only [decide_eq_true_eq, Option.isNone_iff_eq_none, Option.isSome_iff_ne_none, not_and]

/-- A setting that is no container is let through as it is. -/
theorem ite_eq_ok {p : Prop} [Decidable p] {x : Wrong} :
    (if p then .ok v else wrong path x : Outcome) = .ok w ↔ w = v ∧ p := by
  by_cases hp : p
  · simp [hp, eq_comm]
  · simp [hp, wrong]

mutual
/-- **A check gives** what the schema lets through. -/
theorem checkAt_eq_ok : ∀ (s : Schema) (path : List Setting) {v w : Setting}, checkAt path s v = .ok w ↔ Accepts s v w
  | .int, path, v, w => by
    unfold checkAt Accepts
    exact ite_eq_ok
  | .text, path, v, w => by
    unfold checkAt Accepts
    cases v <;> simp [wrong, eq_comm]
  | .bool, path, v, w => by
    unfold checkAt Accepts
    cases v <;> simp [wrong, eq_comm]
  | .choice words, path, v, w => by
    unfold checkAt Accepts
    refine ite_eq_ok.trans ?_
    simp [Setting.isText_iff]
  | .list item, path, v, w => by
    have hitem : ∀ here x y, checkAt here item x = .ok y ↔ Accepts item x y := fun here _ _ => checkAt_eq_ok item here
    unfold checkAt Accepts
    cases v with
    | list xs =>
      simp only [Outcome.bind_eq_ok, settle_ok]
      constructor
      · rintro ⟨⟨cs, ys⟩, hcheck, rfl, rfl⟩
        exact ⟨xs, ys, rfl, rfl, ((checkItems_eq_ok hitem).1 hcheck).2⟩
      · rintro ⟨_, ys, ⟨⟩, rfl, hall⟩
        exact ⟨([], ys), (checkItems_eq_ok hitem).2 ⟨rfl, hall⟩, rfl, rfl⟩
    | _ => simp [wrong]
  | .map fields isOpen, path, v, w => by
    have hvalue : ∀ here k v w, (checkField here fields k v).elim (w = v ∧ isOpen = true) (· = .ok w) ↔
        AcceptsValue fields isOpen k v w := fun here _ _ _ => checkField_elim fields here
    unfold checkAt Accepts
    cases v with
    | map es =>
      simp only
      constructor
      · intro h
        obtain ⟨hnil, rfl⟩ := settle_ok.1 h
        obtain ⟨hnone, hmissing⟩ := List.append_eq_nil_iff.1 hnil
        exact ⟨es, _, rfl, rfl, missing_eq_nil.1 hmissing, (checkEntries_eq_nil hvalue).1 (Prod.ext hnone rfl)⟩
      · rintro ⟨_, fs, ⟨⟩, rfl, hcomplete, hall⟩
        rw [(checkEntries_eq_nil hvalue).2 hall, missing_eq_nil.2 hcomplete]
        rfl
    | _ => simp [wrong]
theorem checkField_elim : ∀ (fields : List (Rule × Schema)) (path : List Setting) {isOpen : Bool} {k v w : Setting},
    (checkField path fields k v).elim (w = v ∧ isOpen = true) (· = .ok w) ↔ AcceptsValue fields isOpen k v w
  | [], path, isOpen, k, v, w => by
    rw [checkField, AcceptsValue]
    rfl
  | (r, s) :: fields, path, isOpen, k, v, w => by
    rw [checkField, AcceptsValue]
    cases k.isText r.name with
    | true => simpa using checkAt_eq_ok s path
    | false => simpa using checkField_elim fields path
end

end Checks

/-! ## Valid settings are valid again -/

section Again

variable {fields : List (Rule × Schema)} {es fs : List (Setting × Setting)} {f : Rule × Schema}

theorem isSome_find?_of_forall₂ {R : Setting × Setting → Setting × Setting → Prop}
    (h : List.Forall₂ (fun e f => f.1 = e.1 ∧ R e f) es fs) (k : Setting) :
    (Setting.find? k fs).isSome = (Setting.find? k es).isSome := by
  induction h with
  | nil => rfl
  | @cons e f es fs hef _ ih =>
    rw [Setting.find?_cons, Setting.find?_cons, hef.1]
    split_ifs
    · rfl
    · exact ih

theorem isSome_find?_fill (hf : f ∈ fields) (hfiller : f.1.filler.isSome) :
    (Setting.find? (.text f.1.name) (fill fields es)).isSome := by
  obtain ⟨v, hv⟩ := Option.isSome_iff_exists.1 hfiller
  rw [fill, Setting.find?_append, Option.isSome_or, Bool.or_eq_true]
  cases hes : Setting.find? (.text f.1.name) es with
  | some x => exact .inl rfl
  | none =>
    refine .inr (Setting.isSome_find?_text.2 ⟨v, List.mem_filterMap.2 ⟨f, hf, ?_⟩⟩)
    simp only [hv, hes]

theorem fill_eq_self (h : ∀ f ∈ fields, f.1.filler.isSome → (Setting.find? (.text f.1.name) es).isSome) :
    fill fields es = es := by
  refine (congrArg (es ++ ·) (List.filterMap_eq_nil_iff.2 fun f hf => ?_)).trans (List.append_nil es)
  cases hfiller : f.1.filler with
  | none => simp only [hfiller]
  | some v =>
    obtain ⟨x, hx⟩ := Option.isSome_iff_exists.1 (h f hf (by rw [hfiller]; rfl))
    simp only [hfiller, hx]

mutual
/-- **With what is filled in a valid setting is valid**, and nothing more is filled in. -/
theorem Accepts.again : ∀ {s : Schema} {v w : Setting}, Accepts s v w → Accepts s w w
  | .int, v, w, h | .text, v, w, h | .bool, v, w, h | .choice _, v, w, h => by
    unfold Accepts at h ⊢
    obtain ⟨rfl, h⟩ := h
    exact ⟨rfl, h⟩
  | .list item, v, w, h => by
    unfold Accepts at h ⊢
    obtain ⟨xs, ys, -, rfl, hall⟩ := h
    refine ⟨ys, ys, rfl, rfl, ?_⟩
    induction hall with
    | nil => exact .nil
    | cons hxy _ ih => exact .cons hxy.again ih
  | .map fields isOpen, v, w, h => by
    unfold Accepts at h ⊢
    obtain ⟨es, fs, -, rfl, hcomplete, hall⟩ := h
    have hkeys := isSome_find?_of_forall₂ hall
    have hfill : fill fields fs = fs :=
      fill_eq_self fun f hf hfiller => (hkeys _).trans (isSome_find?_fill hf hfiller)
    refine ⟨fs, fs, rfl, rfl, ?_, ?_⟩
    · rw [hfill]
      exact fun f hf hrequired => (hkeys _).trans (hcomplete f hf hrequired)
    · rw [hfill]
      clear hkeys hfill hcomplete
      generalize fill fields es = es at hall
      induction hall with
      | nil => exact .nil
      | @cons e f _ _ hef _ ih => exact .cons ⟨rfl, hef.1 ▸ hef.2.again⟩ ih
theorem AcceptsValue.again : ∀ {fields : List (Rule × Schema)} {isOpen : Bool} {k v w : Setting},
    AcceptsValue fields isOpen k v w → AcceptsValue fields isOpen k w w
  | [], isOpen, k, v, w, h => by
    unfold AcceptsValue at h ⊢
    exact ⟨rfl, h.2⟩
  | (r, s) :: fields, isOpen, k, v, w, h => by
    unfold AcceptsValue at h ⊢
    exact h.imp (And.imp_right Accepts.again) (And.imp_right AcceptsValue.again)
end

end Again

theorem check_eq_ok {s : Schema} : s.check v = .ok w ↔ Accepts s v w := checkAt_eq_ok s []

/-- **A second check changes nothing.** -/
theorem check_again {s : Schema} (h : s.check v = .ok w) : s.check w = .ok w :=
  check_eq_ok.2 (check_eq_ok.1 h).again

end Schema

end RequestRules
