import RequestRules.Document
import RequestRules.Proofs.Json.Layout

/-!
# Plain forms and faults

A document has no plain form exactly if a foreign object is somewhere in it (`Document.plain?_eq_none_iff`), and it is written
exactly if none is and no integer is too long (`Document.render_eq_ok`).  The fault that is reported is always one that is
in the document (`Document.has_of_fault?`).
-/

namespace RequestRules

namespace Document

/-- Induction over a document: over the items of lists and over the values of fields. -/
theorem ind {P : Document → Prop} (null : P .null) (bool : ∀ b, P (.bool b)) (int : ∀ n, P (.int n))
    (real : ∀ x, P (.real x)) (text : ∀ t, P (.text t)) (list : ∀ xs, (∀ x ∈ xs, P x) → P (.list xs))
    (object : ∀ fs, (∀ f ∈ fs, P f.2) → P (.object fs)) (key : ∀ k, P (.key k)) (moment : ∀ m, P (.moment m))
    (request : ∀ r, P (.request r)) (descriptor : ∀ d, P (.descriptor d)) (foreign : P .foreign) (d : Document) : P d :=
  match d with
  | .null => null
  | .bool b => bool b
  | .int n => int n
  | .real x => real x
  | .text t => text t
  | .list xs =>
    list xs fun x _ => ind null bool int real text list object key moment request descriptor foreign x
  | .object fs =>
    object fs fun f _ => ind null bool int real text list object key moment request descriptor foreign f.2
  | .key k => key k
  | .moment m => moment m
  | .request r => request r
  | .descriptor d => descriptor d
  | .foreign => foreign
termination_by d
decreasing_by
  · have hlt := List.sizeOf_lt_of_mem ‹x ∈ xs›
    rw [Document.list.sizeOf_spec]
    omega
  · obtain ⟨k, v⟩ := f
    have hlt := List.sizeOf_lt_of_mem ‹(k, v) ∈ fs›
    rw [Prod.mk.sizeOf_spec] at hlt
    rw [Document.object.sizeOf_spec]
    dsimp only
    omega

/-! ## Plain forms -/

theorem plainItems?_eq_some {xs : List Document} {js : List Json} :
    plainItems? xs = some js ↔ xs.map plain? = js.map some := by
  induction xs generalizing js with
  | nil => cases js <;> simp [plainItems?]
  | cons x xs ih =>
    cases js with
    | nil => cases hx : plain? x <;> cases hxs : plainItems? xs <;> simp [plainItems?, hx, hxs]
    | cons j js =>
      rw [List.map_cons, List.map_cons, List.cons.injEq, ← ih]
      cases hx : plain? x <;> cases hxs : plainItems? xs <;> simp [plainItems?, hx, hxs]

theorem plainFields?_eq_some {fs : List (Text × Document)} {gs : List (Text × Json)} :
    plainFields? fs = some gs ↔ (fs.map fun f => (f.1, plain? f.2)) = gs.map fun g => (g.1, some g.2) := by
  induction fs generalizing gs with
  | nil => cases gs <;> simp [plainFields?]
  | cons f fs ih =>
    obtain ⟨k, x⟩ := f
    cases gs with
    | nil => cases hx : plain? x <;> cases hfs : plainFields? fs <;> simp [plainFields?, hx, hfs]
    | cons g gs =>
      obtain ⟨l, j⟩ := g
      rw [List.map_cons, List.map_cons, List.cons.injEq, ← ih]
      cases hx : plain? x <;> cases hfs : plainFields? fs <;> simp [plainFields?, hx, hfs]

theorem exists_plain?_of_mem {xs : List Document} {js : List Json} (h : plainItems? xs = some js) {x : Document}
    (hx : x ∈ xs) : ∃ j ∈ js, plain? x = some j := by
  have hmem : plain? x ∈ js.map some := plainItems?_eq_some.1 h ▸ List.mem_map_of_mem hx
  obtain ⟨j, hj, heq⟩ := List.mem_map.1 hmem
  exact ⟨j, hj, heq.symm⟩

theorem exists_plain?_of_mem_fields {fs : List (Text × Document)} {gs : List (Text × Json)} (h : plainFields? fs = some gs)
    {f : Text × Document} (hf : f ∈ fs) : ∃ g ∈ gs, plain? f.2 = some g.2 := by
  have hmem : (f.1, plain? f.2) ∈ gs.map fun g => (g.1, some g.2) :=
    plainFields?_eq_some.1 h ▸ List.mem_map_of_mem (f := fun f => (f.1, plain? f.2)) hf
  obtain ⟨g, hg, heq⟩ := List.mem_map.1 hmem
  exact ⟨g, hg, (Prod.mk.inj heq).2.symm⟩

theorem exists_of_mem_plainItems? {xs : List Document} {js : List Json} (h : plainItems? xs = some js) {j : Json}
    (hj : j ∈ js) : ∃ x ∈ xs, plain? x = some j := by
  have hmem : some j ∈ xs.map plain? := plainItems?_eq_some.1 h ▸ List.mem_map_of_mem hj
  exact List.mem_map.1 hmem

theorem exists_of_mem_plainFields? {fs : List (Text × Document)} {gs : List (Text × Json)} (h : plainFields? fs = some gs)
    {g : Text × Json} (hg : g ∈ gs) : ∃ f ∈ fs, f.1 = g.1 ∧ plain? f.2 = some g.2 := by
  have hmem : (g.1, some g.2) ∈ fs.map fun f => (f.1, plain? f.2) :=
    plainFields?_eq_some.1 h ▸ List.mem_map_of_mem (f := fun g => (g.1, some g.2)) hg
  obtain ⟨f, hf, heq⟩ := List.mem_map.1 hmem
  exact ⟨f, hf, Prod.mk.inj heq⟩

theorem exists_plainItems? {xs : List Document} (h : ∀ x ∈ xs, ∃ j, plain? x = some j) : ∃ js, plainItems? xs = some js := by
  refine ⟨xs.map fun x => (plain? x).getD .null, plainItems?_eq_some.2 ?_⟩
  rw [List.map_map]
  refine List.map_congr_left fun x hx => ?_
  obtain ⟨j, hj⟩ := h x hx
  rw [Function.comp_apply, hj, Option.getD_some]

theorem exists_plainFields? {fs : List (Text × Document)} (h : ∀ f ∈ fs, ∃ j, plain? f.2 = some j) :
    ∃ gs, plainFields? fs = some gs := by
  refine ⟨fs.map fun f => (f.1, (plain? f.2).getD .null), plainFields?_eq_some.2 ?_⟩
  rw [List.map_map]
  refine List.map_congr_left fun f hf => ?_
  obtain ⟨j, hj⟩ := h f hf
  rw [Function.comp_apply, hj, Option.getD_some]

/-! ## Foreign objects -/

/-- There is a foreign object somewhere in the document. -/
inductive HasForeign : Document → Prop
  | foreign : HasForeign foreign
  | list {xs : List Document} {x : Document} (hx : x ∈ xs) (h : HasForeign x) : HasForeign (list xs)
  | object {fs : List (Text × Document)} {f : Text × Document} (hf : f ∈ fs) (h : HasForeign f.2) : HasForeign (object fs)

theorem plain?_list_eq_none {xs : List Document} : plain? (list xs) = none ↔ ∃ x ∈ xs, plain? x = none := by
  rw [plain?, Option.map_eq_none_iff]
  constructor
  · intro h
    by_contra hnone
    obtain ⟨js, hjs⟩ : ∃ js, plainItems? xs = some js := exists_plainItems? fun x hx =>
      Option.ne_none_iff_exists'.1 fun hplain => hnone ⟨x, hx, hplain⟩
    exact absurd (h.symm.trans hjs) nofun
  · rintro ⟨x, hx, hnone⟩
    by_contra hsome
    obtain ⟨js, hjs⟩ := Option.ne_none_iff_exists'.1 hsome
    obtain ⟨j, _, hj⟩ := exists_plain?_of_mem hjs hx
    exact absurd (hnone.symm.trans hj) nofun

theorem plain?_object_eq_none {fs : List (Text × Document)} :
    plain? (object fs) = none ↔ ∃ f ∈ fs, plain? f.2 = none := by
  rw [plain?, Option.map_eq_none_iff]
  constructor
  · intro h
    by_contra hnone
    obtain ⟨gs, hgs⟩ : ∃ gs, plainFields? fs = some gs := exists_plainFields? fun f hf =>
      Option.ne_none_iff_exists'.1 fun hplain => hnone ⟨f, hf, hplain⟩
    exact absurd (h.symm.trans hgs) nofun
  · rintro ⟨f, hf, hnone⟩
    by_contra hsome
    obtain ⟨gs, hgs⟩ := Option.ne_none_iff_exists'.1 hsome
    obtain ⟨g, _, hg⟩ := exists_plain?_of_mem_fields hgs hf
    exact absurd (hnone.symm.trans hg) nofun

/-- **What has no plain form** is a foreign object, or one is somewhere in it. -/
theorem plain?_eq_none_iff {d : Document} : plain? d = none ↔ HasForeign d := by
  constructor
  · intro h
    induction d using Document.ind with
    | list xs ih =>
      obtain ⟨x, hx, hnone⟩ := plain?_list_eq_none.1 h
      exact .list hx (ih x hx hnone)
    | object fs ih =>
      obtain ⟨f, hf, hnone⟩ := plain?_object_eq_none.1 h
      exact .object hf (ih f hf hnone)
    | foreign => exact .foreign
    | _ => cases h
  · intro h
    induction h with
    | foreign => rfl
    | list hx _ ih => exact plain?_list_eq_none.2 ⟨_, hx, ih⟩
    | object hf _ ih => exact plain?_object_eq_none.2 ⟨_, hf, ih⟩

/-! ## Long integers -/

mutual
def isShort : Document → Bool
  | int n => Numeral.isInLimit n
  | list xs => areShort xs
  | object fs => fieldsAreShort fs
  | key k => k.plain.isShort
  | request r => r.plain.isShort
  | descriptor d => d.plain.isShort
  | null | bool _ | real _ | text _ | moment _ | foreign => true
def areShort : List Document → Bool
  | [] => true
  | x :: xs => isShort x && areShort xs
def fieldsAreShort : List (Text × Document) → Bool
  | [] => true
  | (_, v) :: fs => isShort v && fieldsAreShort fs
end

theorem areShort_eq (xs : List Document) : areShort xs = xs.all isShort := by
  induction xs with
  | nil => rfl
  | cons x xs ih => rw [areShort, ih, List.all_cons]

theorem fieldsAreShort_eq (fs : List (Text × Document)) : fieldsAreShort fs = fs.all fun f => f.2.isShort := by
  induction fs with
  | nil => rfl
  | cons f fs ih => rw [fieldsAreShort, ih, List.all_cons]

/-- A document is as short as its plain form. -/
theorem isShort_of_plain? {d : Document} {j : Json} (h : plain? d = some j) : j.isShort = d.isShort := by
  induction d using Document.ind generalizing j with
  | list xs ih =>
    obtain ⟨js, hjs, rfl⟩ := Option.map_eq_some_iff.1 h
    rw [Json.isShort, isShort, Json.areShort_eq, areShort_eq, Bool.eq_iff_iff, List.all_eq_true, List.all_eq_true]
    constructor
    · intro hshort x hx
      obtain ⟨i, hi, hplain⟩ := exists_plain?_of_mem hjs hx
      exact (ih x hx hplain).symm.trans (hshort i hi)
    · intro hshort i hi
      obtain ⟨x, hx, hplain⟩ := exists_of_mem_plainItems? hjs hi
      exact (ih x hx hplain).trans (hshort x hx)
  | object fs ih =>
    obtain ⟨gs, hgs, rfl⟩ := Option.map_eq_some_iff.1 h
    rw [Json.isShort, isShort, Json.fieldsAreShort_eq, fieldsAreShort_eq, Bool.eq_iff_iff, List.all_eq_true,
      List.all_eq_true]
    constructor
    · intro hshort f hf
      obtain ⟨g, hg, hplain⟩ := exists_plain?_of_mem_fields hgs hf
      exact (ih f hf hplain).symm.trans (hshort g hg)
    · intro hshort g hg
      obtain ⟨f, hf, _, hplain⟩ := exists_of_mem_plainFields? hgs hg
      exact (ih f hf hplain).trans (hshort f hf)
  | foreign => cases h
  | _ => cases h; rfl

/-! ## Faults -/

theorem Fault.ofPlain?_eq_some {j : Json} {e : Fault} : Fault.ofPlain? j = some e ↔ j.isShort = false ∧ e = .longInt := by
  unfold Fault.ofPlain?
  cases j.isShort <;> simp [eq_comm]

theorem Fault.ofPlain?_eq_none {j : Json} : Fault.ofPlain? j = none ↔ j.isShort = true := by
  unfold Fault.ofPlain?
  cases j.isShort <;> simp

/-- What there is in a document with the fault: a foreign object leaves no plain form. -/
def Has : Fault → Document → Prop
  | .foreign, d => plain? d = none
  | .longInt, d => d.isShort = false

theorem has_list {e : Fault} {xs : List Document} : Has e (list xs) ↔ ∃ x ∈ xs, Has e x := by
  cases e with
  | foreign => exact plain?_list_eq_none
  | longInt =>
    show areShort xs = false ↔ _
    rw [areShort_eq, List.all_eq_false]
    simp [Has]

theorem has_object {e : Fault} {fs : List (Text × Document)} : Has e (object fs) ↔ ∃ f ∈ fs, Has e f.2 := by
  cases e with
  | foreign => exact plain?_object_eq_none
  | longInt =>
    show fieldsAreShort fs = false ↔ _
    rw [fieldsAreShort_eq, List.all_eq_false]
    simp [Has]

section Faults

variable {sort : Bool} {d : Document} {e : Fault}

theorem fault?_list (sort : Bool) (xs : List Document) : fault? sort (list xs) = xs.findSome? (fault? sort) := by
  rw [fault?]
  induction xs with
  | nil => rfl
  | cons x xs ih =>
    rw [faultOfItems?, ih, List.findSome?_cons]
    cases fault? sort x <;> rfl

theorem fault?_object (sort : Bool) (fs : List (Text × Document)) : fault? sort (object fs) =
    (Json.inOrder sort (fs.map fun f => (f.1, fault? sort f.2))).findSome? (·.2) := by
  have hfields : faultsOfFields sort fs = fs.map fun f => (f.1, fault? sort f.2) := by
    induction fs with
    | nil => rfl
    | cons f fs ih => rw [faultsOfFields, ih, List.map_cons]
  rw [fault?, hfields]

/-- The fault that a document has is in it. -/
theorem has_of_fault? (h : fault? sort d = some e) : Has e d := by
  induction d using Document.ind with
  | list xs ih =>
    rw [fault?_list] at h
    obtain ⟨x, hx, he⟩ := List.exists_of_findSome?_eq_some h
    exact has_list.2 ⟨x, hx, ih x hx he⟩
  | object fs ih =>
    rw [fault?_object] at h
    obtain ⟨p, hp, he⟩ := List.exists_of_findSome?_eq_some h
    obtain ⟨f, hf, rfl⟩ := List.mem_map.1 ((Json.perm_inOrder sort _).mem_iff.1 hp)
    exact has_object.2 ⟨f, hf, ih f hf he⟩
  | int n | key k | request r | descriptor d =>
    obtain ⟨hlong, rfl⟩ := Fault.ofPlain?_eq_some.1 h
    exact hlong
  | foreign => cases h; rfl
  | _ => cases h

/-- A document without a fault has none in it. -/
theorem not_has_of_fault? (h : fault? sort d = none) : ¬ Has e d := by
  have hplain : ∀ {d : Document} {j : Json}, plain? d = some j → j.isShort = true → ¬ Has e d := by
    intro d j hd hshort
    cases e with
    | foreign => exact fun hnone => absurd (hd.symm.trans hnone) nofun
    | longInt =>
      rw [isShort_of_plain? hd] at hshort
      exact fun hlong => absurd (hshort.symm.trans hlong) nofun
  induction d using Document.ind with
  | list xs ih =>
    rw [fault?_list, List.findSome?_eq_none_iff] at h
    intro hhas
    obtain ⟨x, hx, he⟩ := has_list.1 hhas
    exact ih x hx (h x hx) he
  | object fs ih =>
    rw [fault?_object, List.findSome?_eq_none_iff] at h
    intro hhas
    obtain ⟨f, hf, he⟩ := has_object.1 hhas
    exact ih f hf (h _ ((Json.perm_inOrder sort _).mem_iff.2 (List.mem_map_of_mem hf))) he
  | int n | key k | request r | descriptor d => exact hplain rfl (Fault.ofPlain?_eq_none.1 h)
  | foreign => cases h
  | _ => exact hplain rfl rfl

/-- **Documents are written** if they have a plain form without long integers. -/
theorem render_eq_ok {indent : Option Text} {t : Text} : d.render indent sort = .ok t ↔
    ∃ j, d.plain? = some j ∧ j.isShort = true ∧ (j.arranged sort).render indent = t := by
  unfold render
  cases hfault : d.fault? sort with
  | none =>
    obtain ⟨j, hj⟩ := Option.ne_none_iff_exists'.1 (not_has_of_fault? (e := .foreign) hfault)
    have hshort : j.isShort = true := by
      rw [isShort_of_plain? hj]
      exact Bool.of_not_eq_false (not_has_of_fault? (e := .longInt) hfault)
    rw [hj]
    constructor
    · intro h
      exact ⟨j, rfl, hshort, Except.ok.inj h⟩
    · rintro ⟨i, hi, _, rfl⟩
      cases hi
      rfl
  | some e =>
    refine iff_of_false nofun ?_
    rintro ⟨j, hj, hshort, _⟩
    have hhas := has_of_fault? hfault
    cases e with
    | foreign => exact absurd (hj.symm.trans hhas) nofun
    | longInt => exact absurd ((isShort_of_plain? hj).symm.trans hshort |>.symm.trans hhas) nofun

theorem has_of_render {indent : Option Text} (h : d.render indent sort = .error e) : Has e d := by
  unfold render at h
  cases hfault : d.fault? sort with
  | none =>
    obtain ⟨j, hj⟩ := Option.ne_none_iff_exists'.1 (not_has_of_fault? (e := .foreign) hfault)
    rw [hfault, hj] at h
    cases h
  | some f =>
    rw [hfault] at h
    cases h
    exact has_of_fault? hfault

theorem render_of_hasForeign {indent : Option Text} (h : d.HasForeign) (hshort : d.isShort = true) :
    d.render indent sort = .error .foreign := by
  have hnone := plain?_eq_none_iff.2 h
  unfold render
  cases hfault : d.fault? sort with
  | none => exact absurd hnone (not_has_of_fault? (e := .foreign) hfault)
  | some f =>
    have hhas := has_of_fault? hfault
    cases f with
    | foreign => rfl
    | longInt => exact absurd (hshort.symm.trans hhas) nofun

end Faults

end Document

end RequestRules
