import RequestRules.Proofs.Inventory.Accepted
import RequestRules.Proofs.Registry.Context

/-!
# Loading an inventory

* `Inventory.load_eq` — what is loaded does not depend on what was loaded before;
* `Inventory.load_of_check` — something is loaded exactly if an entry is enabled;
* `Inventory.load_congr` — settings that are the same, and valid, load the same.
-/

namespace RequestRules

namespace Inventory

/-! ## What loading does -/

variable {v : Inventory}

/-- **What registering an item does.**  The rejection that was held for the item is gone, whatever its rules are; if they
are rejected, there is another one, and the item is dropped. -/
theorem register_cases (v : Inventory) (context : Text) (item : Item) (rules : Option Text) :
    (rules = none ∧ v.register context item rules = (.ok true, { v with errors := v.errors.erase item.name })) ∨
    (∃ t d, rules = some t ∧ Descriptor.parse item t = .ok d ∧ v.register context item rules =
      (.ok true, { v with errors := v.errors.erase item.name,
                          registry := v.registry.register context item.name d })) ∨
    (∃ t r, rules = some t ∧ Descriptor.parse item t = .error (.rejected r) ∧ v.register context item rules =
      (.ok false, { v with errors := (v.errors.erase item.name).put item.name r,
                           registry := v.registry.remove item.name })) ∨
    ∃ t e, rules = some t ∧ Descriptor.parse item t = .error e ∧ (∀ r, e ≠ .rejected r) ∧
      v.register context item rules = (.error e, { v with errors := v.errors.erase item.name }) := by
  cases rules with
  | none => exact .inl ⟨rfl, rfl⟩
  | some t =>
    rcases Registry.process_some_cases v.registry context item t with ⟨d, hp, hr⟩ | ⟨r, hp, hr⟩ | ⟨e, hp, hne, hr⟩
    · exact .inr (.inl ⟨t, d, rfl, hp, by rw [register, hr]⟩)
    · exact .inr (.inr (.inl ⟨t, r, rfl, hp, by rw [register, hr]⟩))
    · refine .inr (.inr (.inr ⟨t, e, rfl, hp, hne, ?_⟩))
      rw [register, hr]
      cases e with
      | rejected r => exact absurd rfl (hne r)
      | longInterval n => rfl
      | bothGiven => rfl

theorem items_register (v : Inventory) (context : Text) (item : Item) (rules : Option Text) :
    (v.register context item rules).2.items = v.items := by
  unfold register
  split <;> rfl

theorem registry_register (v : Inventory) (context : Text) (item : Item) (rules : Option Text) :
    (v.register context item rules).2.registry = (v.registry.process context item rules).2 := by
  unfold register
  split <;> simp_all

/-- **What adding an entry does.**  The entry is not read, or is disabled, or its item is put in: with rules it is registered,
and without any that can be looked at it is not. -/
theorem add_cases (v : Inventory) (e : Setting) :
    (∃ x, Entry.read e = .error x ∧ v.add e = (.error x, v)) ∨
    (Entry.read e = .ok .disabled ∧ v.add e = (.ok (), v)) ∨
    (∃ item x errors, Entry.read e = .ok (.enabled item (.error x)) ∧
      (errors = v.errors ∨ errors = v.errors.erase item.name) ∧
      v.add e = (.error x, { v with items := v.items.put item.name item, errors })) ∨
    ∃ (item : Item) (rules : Option Text) (w : Inventory), Entry.read e = .ok (.enabled item (.ok rules)) ∧
      w = { v with items := v.items.put item.name item } ∧
      v.add e = (((w.register context item rules).1.map fun _ => ()).mapError .descriptor,
        (w.register context item rules).2) := by
  unfold add
  cases hread : Entry.read e with
  | error x => exact .inl ⟨x, rfl, rfl⟩
  | ok entry =>
    cases entry with
    | disabled => exact .inr (.inl ⟨rfl, rfl⟩)
    | enabled item rules =>
      cases rules with
      | error x =>
        refine .inr (.inr (.inl ?_))
        cases x with
        | noField => exact ⟨item, _, v.errors, rfl, .inl rfl, rfl⟩
        | wrongSort => exact ⟨item, _, _, rfl, .inr rfl, rfl⟩
        | unknownType name => exact ⟨item, _, _, rfl, .inr rfl, rfl⟩
        | descriptor e => exact ⟨item, _, _, rfl, .inr rfl, rfl⟩
      | ok rules =>
        refine .inr (.inr (.inr ⟨item, rules, _, rfl, rfl, ?_⟩))
        simp only
        rcases register { v with items := v.items.put item.name item } context item rules with ⟨_ | _, w⟩ <;> rfl

/-- An entry that is added is disabled, or its rules are read. -/
theorem add_ok {e : Setting} (h : (v.add e).1 = .ok ()) :
    (Entry.read e = .ok .disabled ∧ (v.add e).2 = v) ∨
    ∃ (item : Item) (rules : Option Text) (w : Inventory), Entry.read e = .ok (.enabled item (.ok rules)) ∧
      w = { v with items := v.items.put item.name item } ∧ (∃ b, (w.register context item rules).1 = .ok b) ∧
      (v.add e).2 = (w.register context item rules).2 := by
  rcases add_cases v e with ⟨x, _, ha⟩ | ⟨hr, ha⟩ | ⟨i, x, errors, _, _, ha⟩ | ⟨i, rs, w, hr, hw, ha⟩ <;> rw [ha] at h ⊢
  · exact absurd h (by simp)
  · exact .inl ⟨hr, rfl⟩
  · exact absurd h (by simp)
  · obtain ⟨b, hb, _⟩ := Outcome.map_eq_ok.1 (Outcome.mapError_eq_ok.1 h)
    exact .inr ⟨i, rs, w, hr, hw, ⟨b, hb⟩, rfl⟩

theorem add_disabled {e : Setting} (h : Entry.read e = .ok .disabled) : v.add e = (.ok (), v) := by
  unfold add
  rw [h]

theorem items_add {e : Setting} {item : Item} {rules : Except EntryError (Option Text)}
    (h : Entry.read e = .ok (.enabled item rules)) : (v.add e).2.items = v.items.put item.name item := by
  rcases add_cases v e with ⟨x, hr, ha⟩ | ⟨hr, ha⟩ | ⟨i, x, errors, hr, _, ha⟩ | ⟨i, rs, w, hr, rfl, ha⟩ <;>
    cases hr.symm.trans h <;> rw [ha]
  exact items_register _ context item rs

theorem isOnly_add (h : v.registry.IsOnly context) (e : Setting) : (v.add e).2.registry.IsOnly context := by
  rcases add_cases v e with ⟨x, _, ha⟩ | ⟨_, ha⟩ | ⟨i, x, errors, _, _, ha⟩ | ⟨i, rs, w, _, rfl, ha⟩ <;> rw [ha]
  · exact h
  · exact h
  · exact h
  · show (register _ context i rs).2.registry.IsOnly context
    rw [registry_register]
    exact h.process i rs

theorem addAll_cons (v : Inventory) (e : Setting) (es : List Setting) :
    v.addAll (e :: es) = match v.add e with
      | (.ok (), w) => w.addAll es
      | (.error x, w) => (.error x, w) := rfl

theorem isOnly_addAll (h : v.registry.IsOnly context) (es : List Setting) : (v.addAll es).2.registry.IsOnly context := by
  induction es generalizing v with
  | nil => exact h
  | cons e es ih =>
    have hadd := isOnly_add h e
    rw [addAll_cons]
    rcases hr : v.add e with ⟨_ | _, w⟩ <;> rw [hr] at hadd
    · exact hadd
    · exact ih hadd

theorem clear_eq (h : v.registry.IsOnly context) : v.clear = {} := by
  unfold clear
  rw [h.removeContext_eq]
  rfl

/-- **What is loaded does not depend on what was loaded before.** -/
theorem load_eq (h : v.registry.IsOnly context) (s : Setting) : v.load s = ({} : Inventory).load s := by
  have hempty : ({} : Inventory).clear = {} := rfl
  unfold load
  rw [clear_eq h, hempty]

theorem isOnly_load (h : v.registry.IsOnly context) (s : Setting) : (v.load s).2.registry.IsOnly context := by
  have hempty : v.clear.registry.IsOnly context := by
    rw [clear_eq h]
    exact Registry.isOnly_empty context
  unfold load
  split
  · exact isOnly_addAll hempty _
  · exact hempty

/-! ## Enabled entries -/

def HasEnabled (s : Setting) : Prop :=
  ∃ xs, s = .list xs ∧ ∃ es, .map es ∈ xs ∧ Setting.field? "enabled" es ≠ some (.bool false)

/-- Once there is an item, or an entry for one, there is one in the end. -/
theorem items_addAll {es : List Setting} (hread : ∀ e ∈ es, ∃ x, Entry.read e = .ok x)
    (h : v.items ≠ [] ∨ ∃ e ∈ es, Entry.read e ≠ .ok .disabled) : (v.addAll es).2.items ≠ [] := by
  induction es generalizing v with
  | nil => exact h.elim id fun ⟨e, he, _⟩ => absurd he (by simp)
  | cons e es ih =>
    obtain ⟨x, hx⟩ := hread e (by simp)
    have hread' : ∀ e ∈ es, ∃ x, Entry.read e = .ok x := fun e he => hread e (List.mem_cons_of_mem _ he)
    rw [addAll_cons]
    cases x with
    | disabled =>
      rw [add_disabled hx]
      refine ih hread' (h.imp_right ?_)
      rintro ⟨e', he', hne⟩
      rcases List.mem_cons.1 he' with rfl | he'
      · exact absurd hx hne
      · exact ⟨e', he', hne⟩
    | enabled item rules =>
      have hitems : (v.add e).2.items ≠ [] := by
        rw [items_add hx]
        exact Table.put_ne_nil _ _ _
      rcases hr : v.add e with ⟨_ | _, w⟩ <;> rw [hr] at hitems
      · exact hitems
      · exact ih hread' (.inl hitems)

theorem addAll_disabled {es : List Setting} (h : ∀ e ∈ es, Entry.read e = .ok .disabled) : v.addAll es = (.ok (), v) := by
  induction es with
  | nil => rfl
  | cons e es ih =>
    rw [addAll_cons, add_disabled (h e (by simp))]
    exact ih fun e he => h e (List.mem_cons_of_mem _ he)

theorem read_filled {es : List (Setting × Setting)} {type : ItemType} {name rules : Text} {isEnabled : Bool}
    (h : Entry.Valid (filled es) type name rules isEnabled) :
    Entry.read (.map (filled es)) = .ok .disabled ↔ Setting.field? "enabled" es = some (.bool false) := by
  have henabled := h.enabled
  rw [field?_enabled_filled] at henabled
  rw [h.read_eq]
  cases hf : Setting.field? "enabled" es with
  | none =>
    rw [hf] at henabled
    cases henabled
    simp
  | some x =>
    rw [hf] at henabled
    cases henabled
    cases isEnabled <;> simp

/-- **Something is loaded** exactly if an entry is enabled. -/
theorem load_of_check {s c : Setting} (h : schema.check s = .ok c) :
    (HasEnabled s → (({} : Inventory).load c).2.items ≠ []) ∧ (¬ HasEnabled s → (({} : Inventory).load c).2 = {}) := by
  obtain ⟨ess, rfl, rfl, hvalid⟩ := check_ok h
  have hload : ({} : Inventory).load (.list (ess.map fun es => .map (filled es))) =
      ({} : Inventory).addAll (ess.map fun es => .map (filled es)) := rfl
  rw [hload]
  constructor
  · rintro ⟨xs, hxs, es, hes, hne⟩
    cases hxs
    obtain ⟨es', hes', heq⟩ := List.mem_map.1 hes
    cases heq
    refine items_addAll ?_ (.inr ⟨.map (filled es), List.mem_map.2 ⟨es, hes', rfl⟩, ?_⟩)
    · intro e he
      obtain ⟨fs, hfs, rfl⟩ := List.mem_map.1 he
      obtain ⟨type, name, rules, isEnabled, hv⟩ := hvalid fs hfs
      exact ⟨_, hv.read_eq⟩
    · obtain ⟨type, name, rules, isEnabled, hv⟩ := hvalid es hes'
      exact fun hd => hne ((read_filled hv).1 hd)
  · intro hno
    rw [addAll_disabled]
    intro e he
    obtain ⟨es, hes, rfl⟩ := List.mem_map.1 he
    obtain ⟨type, name, rules, isEnabled, hv⟩ := hvalid es hes
    refine (read_filled hv).2 ?_
    by_contra hne
    exact hno ⟨_, rfl, es, List.mem_map.2 ⟨es, hes, rfl⟩, hne⟩

/-! ## Settings that are the same -/

section Same

variable {es fs : List (Setting × Setting)} {type type' : ItemType} {name name' rules rules' : Text} {b b' : Bool}

/-- Valid entries that are the same are read alike. -/
theorem read_of_same (hd : Setting.DistinctKeys es) (hsame : Setting.sameInside? (.map es) (.map fs) = some true)
    (hes : Entry.Valid (filled es) type name rules b) (hfs : Entry.Valid (filled fs) type' name' rules' b') :
    Entry.read (.map (filled es)) = Entry.read (.map (filled fs)) := by
  obtain ⟨hlen, hsame⟩ := Setting.sameInside?_map hsame
  have htext : ∀ s t, Setting.field? s es = some (.text t) → Setting.field? s fs = some (.text t) := by
    intro s t h
    obtain ⟨w, hw, hsame⟩ := Setting.find?_of_sameEntries hsame h
    rw [Setting.sameInside?_text hsame] at hw
    exact hw
  have hnone : ∀ s, Setting.field? s es = none → Setting.field? s fs = none :=
    fun s h => Setting.find?_eq_none_of_sameEntries hd hlen hsame h
  refine Entry.read_congr fun s hs => ?_
  by_cases he : s = "enabled"
  · subst he
    have hes' := hes.enabled
    have hfs' := hfs.enabled
    rw [field?_enabled_filled] at hes' hfs' ⊢
    rw [field?_enabled_filled]
    cases hf : Setting.field? "enabled" es with
    | none => rw [hnone _ hf]
    | some v =>
      rw [hf] at hes'
      cases hes'
      -- a truth value is the same as a number, but here both are truth values
      obtain ⟨w, hw, hvw⟩ := Setting.find?_of_sameEntries hsame hf
      have hw' : Setting.field? "enabled" fs = some w := hw
      rw [hw'] at hfs' ⊢
      cases hfs'
      cases b <;> cases b' <;> first | rfl | exact absurd hvw (by decide)
  · rw [field?_filled he, field?_filled he]
    simp only [List.mem_cons, List.not_mem_nil, or_false] at hs
    have hrequired : ∀ t, Setting.field? s (filled es) = some (.text t) → Setting.field? s es = Setting.field? s fs := by
      intro t h
      rw [field?_filled he] at h
      rw [h, htext s t h]
    rcases hs with rfl | rfl | rfl | rfl | rfl
    · exact hrequired _ hes.type
    · exact hrequired _ hes.name
    · cases hf : Setting.field? "label" es with
      | none => rw [hnone _ hf]
      | some v =>
        obtain ⟨t, rfl⟩ := hes.label v (by rw [field?_filled he]; exact hf)
        rw [htext _ t hf]
    · exact hrequired _ hes.rules
    · exact absurd rfl he

end Same

theorem addAll_congr {xs ys : List Setting} (h : List.Forall₂ (fun x y => Entry.read x = Entry.read y) xs ys)
    (v : Inventory) : v.addAll xs = v.addAll ys := by
  induction h generalizing v with
  | nil => rfl
  | @cons x y xs ys hxy _ ih =>
    have hadd : v.add x = v.add y := by
      unfold add
      rw [hxy]
    rw [addAll_cons, addAll_cons, hadd]
    rcases v.add y with ⟨_ | _, w⟩
    · rfl
    · exact ih w

/-- **Valid settings that are the same load the same.** -/
theorem load_congr {s t c d : Setting} (hs : s.Proper) (hsame : s.same? t = some true) (hc : schema.check s = .ok c)
    (hd : schema.check t = .ok d) (v : Inventory) : v.load c = v.load d := by
  obtain ⟨ess, rfl, rfl, hes⟩ := check_ok hc
  obtain ⟨fss, rfl, rfl, hfs⟩ := check_ok hd
  have hproper : ∀ es ∈ ess, Setting.DistinctKeys es := by
    intro es hmem
    exact (Setting.AllProper.mem hs (.map es) (List.mem_map.2 ⟨es, hmem, rfl⟩)).1
  replace hsame := Setting.sameInside?_list hsame
  rw [List.forall₂_map_left_iff, List.forall₂_map_right_iff] at hsame
  refine addAll_congr ?_ v.clear
  rw [List.forall₂_map_left_iff, List.forall₂_map_right_iff]
  clear hc hd hs
  induction hsame with
  | nil => exact .nil
  | @cons es fs ess fss hmap _ ih =>
    obtain ⟨type, name, rules, b, hv⟩ := hes es (by simp)
    obtain ⟨type', name', rules', b', hv'⟩ := hfs fs (by simp)
    have hread := read_of_same (hproper es (by simp)) hmap hv hv'
    refine .cons hread (ih ?_ ?_ ?_)
    · exact fun e he => hes e (List.mem_cons_of_mem _ he)
    · exact fun e he => hfs e (List.mem_cons_of_mem _ he)
    · exact fun e he => hproper e (List.mem_cons_of_mem _ he)

end Inventory

end RequestRules
