import Mathlib.Data.List.Pairwise
import Mathlib.Data.List.Perm.Basic
import RequestRules.Proofs.Inventory
import RequestRules.Proofs.Registry.View

/-!
# The order of entries

`Inventory.view` is an inventory without the orders in which names have come up.  Whether an entry can be added does not
depend on the inventory (`Inventory.fst_add`), and in the view the entry puts in its own item only
(`Inventory.view_add`).  So entries for different items can be loaded in any order, as changes of a registry that concern
different items can be done in any order (`Inventory.load_perm`).
-/

namespace RequestRules

def Entry.name? (e : Setting) : Option Text :=
  match read e with
  | .ok (.enabled item _) => some item.name
  | _ => none

namespace Inventory

/-- Items, rejections, descriptors and contexts by their names. -/
@[ext]
structure View where
  items : Text → Option Item
  errors : Text → Option Rejection
  registry : Registry.View

def view (v : Inventory) : View := ⟨v.items.get?, v.errors.get?, v.registry.view⟩

def rejection? (item : Item) (rules : Option Text) : Option Rejection :=
  match rules.map (Descriptor.parse item) with
  | some (.error (.rejected r)) => some r
  | _ => none

section Rejections

variable {item : Item} {t : Text}

theorem rejection?_of_ok {d : Descriptor} (h : Descriptor.parse item t = .ok d) : rejection? item (some t) = none := by
  simp only [rejection?, Option.map_some, h]

theorem rejection?_of_rejected {r : Rejection} (h : Descriptor.parse item t = .error (.rejected r)) :
    rejection? item (some t) = some r := by
  simp only [rejection?, Option.map_some, h]

/-- A fault that is no rejection is not kept. -/
theorem rejection?_of_fault {x : DescriptorError} (h : Descriptor.parse item t = .error x) (hne : ∀ r, x ≠ .rejected r) :
    rejection? item (some t) = none := by
  cases x with
  | rejected r => exact absurd rfl (hne r)
  | _ => simp only [rejection?, Option.map_some, h]

end Rejections

namespace View

/-- The view when the rules of an item have been looked at under a context. -/
def register (w : View) (context : Text) (item : Item) (rules : Option Text) : View where
  items := w.items
  errors := Function.update w.errors item.name (rejection? item rules)
  registry := w.registry.edit item.name (.ofText context item rules)

def put (w : View) (item : Item) (rules : Option Text) : View where
  items := Function.update w.items item.name (some item)
  errors := Function.update w.errors item.name (rejection? item rules)
  registry := w.registry.edit item.name (.ofText context item rules)

theorem put_eq (w : View) (item : Item) (rules : Option Text) : w.put item rules =
    ({ w with items := Function.update w.items item.name (some item) } : View).register context item rules := rfl

theorem put_comm {i j : Item} (h : i.name ≠ j.name) (w : View) (rs ss : Option Text) :
    (w.put i rs).put j ss = (w.put j ss).put i rs := by
  ext1
  · exact Function.update_comm h _ _ _
  · exact Function.update_comm h _ _ _
  · exact Registry.View.edit_comm h _ _ _

def add (w : View) (e : Setting) : View :=
  match Entry.read e with
  | .ok (.enabled item (.ok rules)) => w.put item rules
  | _ => w

/-- An entry puts in its item, or leaves the view as it is. -/
theorem add_eq (e : Setting) :
    (∀ w : View, w.add e = w) ∨ ∃ item rules, Entry.name? e = some item.name ∧ ∀ w : View, w.add e = w.put item rules := by
  unfold add Entry.name?
  rcases Entry.read e with x | (_ | ⟨item, x | rules⟩)
  · exact .inl fun _ => rfl
  · exact .inl fun _ => rfl
  · exact .inl fun _ => rfl
  · exact .inr ⟨item, rules, rfl, fun _ => rfl⟩

/-- Two entries can be added in either order. -/
def Interchange (e f : Setting) : Prop := ∀ w : View, (w.add e).add f = (w.add f).add e

instance : Std.Symm Interchange := ⟨fun _ _ h w => (h w).symm⟩

/-- **Entries for different items commute.** -/
theorem interchange {e f : Setting} (h : ∀ n, Entry.name? e = some n → ∀ m, Entry.name? f = some m → n ≠ m) :
    Interchange e f := by
  intro w
  rcases add_eq e with he | ⟨i, rs, hi, he⟩
  · rw [he, he]
  · rcases add_eq f with hf | ⟨j, ss, hj, hf⟩
    · rw [hf, hf]
    · rw [hf, he, he, hf, put_comm (h _ hi _ hj)]

end View

/-! ## What an entry does to the view -/

variable {v : Inventory} {e : Setting}

theorem view_register (v : Inventory) (context : Text) (item : Item) (rules : Option Text) :
    (v.register context item rules).2.view = v.view.register context item rules := by
  ext1
  · show (v.register context item rules).2.items.get? = v.items.get?
    rw [items_register]
  · funext n
    show (v.register context item rules).2.errors.get? n = Function.update v.errors.get? item.name (rejection? item rules) n
    rw [Function.update_apply]
    rcases register_cases v context item rules with
      ⟨rfl, hr⟩ | ⟨t, d, rfl, hp, hr⟩ | ⟨t, r, rfl, hp, hr⟩ | ⟨t, x, rfl, hp, hne, hr⟩ <;> rw [hr]
    · exact Table.get?_erase v.errors item.name n
    · rw [rejection?_of_ok hp]
      exact Table.get?_erase v.errors item.name n
    · simp only [rejection?_of_rejected hp, Table.get?_put, Table.get?_erase]
      by_cases hn : n = item.name <;> simp [hn]
    · rw [rejection?_of_fault hp hne]
      exact Table.get?_erase v.errors item.name n
  · show (v.register context item rules).2.registry.view = _
    rw [registry_register, Registry.view_process]
    rfl

theorem view_add (h : (v.add e).1 = .ok ()) : (v.add e).2.view = v.view.add e := by
  unfold View.add
  rcases add_ok h with ⟨hread, ha⟩ | ⟨item, rules, w, hread, rfl, _, ha⟩ <;> rw [hread, ha]
  rw [view_register]
  ext1
  · funext n
    show Table.get? (v.items.put item.name item) n = Function.update v.items.get? item.name (some item) n
    rw [Table.get?_put, Function.update_apply]
  · rfl
  · rfl

theorem fst_register (v w : Inventory) (item : Item) (rules : Option Text) :
    (v.register context item rules).1 = (w.register context item rules).1 := by
  cases rules with
  | none => rfl
  | some t =>
    cases hp : Descriptor.parse item t with
    | ok d => simp only [register, Registry.process, hp]
    | error x => cases x <;> simp only [register, Registry.process, hp]

/-- Whether an entry can be added does not depend on the inventory. -/
theorem fst_add (v w : Inventory) (e : Setting) : (v.add e).1 = (w.add e).1 := by
  rcases add_cases v e with ⟨x, hr, ha⟩ | ⟨hr, ha⟩ | ⟨i, x, errors, hr, _, ha⟩ | ⟨i, rs, v', hr, _, ha⟩ <;>
    rcases add_cases w e with ⟨x', hr', ha'⟩ | ⟨hr', ha'⟩ | ⟨i', x', errors', hr', _, ha'⟩ | ⟨i', rs', w', hr', _, ha'⟩ <;>
      cases hr.symm.trans hr' <;> rw [ha, ha']
  rw [fst_register v' w' i rs]

theorem addAll_eq_ok {es : List Setting} :
    (v.addAll es).1 = .ok () ↔ ∀ e ∈ es, (({} : Inventory).add e).1 = .ok () := by
  induction es generalizing v with
  | nil => exact iff_of_true rfl (by simp)
  | cons e es ih =>
    rw [addAll_cons, List.forall_mem_cons, fst_add {} v e]
    rcases v.add e with ⟨_ | _, w⟩
    · simp
    · simp [ih]

theorem view_addAll {es : List Setting} (h : (v.addAll es).1 = .ok ()) :
    (v.addAll es).2.view = es.foldl View.add v.view := by
  induction es generalizing v with
  | nil => rfl
  | cons e es ih =>
    rw [addAll_cons] at h ⊢
    rcases ha : v.add e with ⟨x | _, w⟩ <;> rw [ha] at h
    · exact absurd h (by simp)
    · have hadd : w.view = v.view.add e := by
        have hview := view_add (v := v) (e := e) (by rw [ha])
        rwa [ha] at hview
      rw [List.foldl_cons, ← hadd]
      exact ih h

/-- **Independent items commute.**  Entries whose enabled names are different are loaded in one order if they are loaded in
another, and then give the same items, rejections, descriptors and contexts, whatever was there before.  And two changes
of a registry that concern different items lead to the same descriptors and contexts in either order. -/
theorem load_perm :
    (∀ (v : Inventory) (entries entries' : List Setting), (entries.filterMap Entry.name?).Nodup → entries.Perm entries' →
      ((v.load (.list entries)).1 = .ok () ↔ (v.load (.list entries')).1 = .ok ()) ∧
      ((v.load (.list entries)).1 = .ok () → (v.load (.list entries)).2.view = (v.load (.list entries')).2.view)) ∧
    ∀ (r : Registry) (s t : Registry.Step) (n m : Text), s.item? = some n → t.item? = some m → n ≠ m →
      ((r.step s).step t).view = ((r.step t).step s).view := by
  refine ⟨fun v entries entries' hnodup hperm => ?_, fun r s t n m hs ht hne => Registry.view_step_comm hs ht hne r⟩
  have hload : ∀ es, v.load (.list es) = v.clear.addAll es := fun _ => rfl
  have hiff : (v.clear.addAll entries).1 = .ok () ↔ (v.clear.addAll entries').1 = .ok () := by
    rw [addAll_eq_ok, addAll_eq_ok]
    exact forall_congr' fun e => imp_congr_left hperm.mem_iff
  rw [hload, hload]
  refine ⟨hiff, fun hok => ?_⟩
  rw [view_addAll hok, view_addAll (hiff.1 hok)]
  have hpair : entries.Pairwise View.Interchange := (List.pairwise_filterMap.1 hnodup).imp View.interchange
  -- an entry commutes with itself anyway, and with the others by their names
  have hcomm : ∀ e ∈ entries, ∀ f ∈ entries, View.Interchange e f :=
    List.Pairwise.forall_of_forall (fun _ _ _ => rfl) hpair
  exact hperm.foldl_eq' hcomm v.clear.view

/-- A fan, a lamp whose rules are rejected while it stands under another context, and a disabled entry for the fan, loaded
in both directions; and the lamp rejected before and after the fan is registered. -/
theorem load_perm_lamp :
    let entry (name rules : String) (isEnabled : Bool) : Setting := .map [
      (.text (.of "name"), .text (.of name)), (.text (.of "type"), .text (.of "Switch")),
      (.text (.of "http"), .text (.of rules)), (.text (.of "enabled"), .bool isEnabled)]
    let good := Text.of ">[ON:GET:http://x/on]"
    let lamp : Item := ⟨.switch, .of "Lamp", .of "Lamp"⟩
    let fan : Item := ⟨.switch, .of "Fan", .of "Fan"⟩
    let v := (({} : Inventory).register (.of "hall") lamp (some good)).2
    let entries := [entry "Fan" ">[ON:GET:http://x/on]" true, entry "Lamp" "-" true, entry "Fan" "-" false]
    let s : Registry.Step := .process (.of "attic") lamp (some (.of "-"))
    let t : Registry.Step := .process (.of "hall") fan (some good)
    (entries.filterMap Entry.name?).Nodup ∧ (v.load (.list entries)).1 = .ok () ∧
      (v.load (.list entries.reverse)).1 = .ok () ∧
      (v.load (.list entries)).2.view = (v.load (.list entries.reverse)).2.view ∧
      ((v.registry.step s).step t).view = ((v.registry.step t).step s).view := by
  intro entry good lamp fan v entries s t
  have hnodup : (entries.filterMap Entry.name?).Nodup := by decide +kernel
  have hok : (v.load (.list entries)).1 = .ok () := by decide +kernel
  obtain ⟨hload, hstep⟩ := load_perm
  obtain ⟨hiff, hview⟩ := hload v entries entries.reverse hnodup entries.reverse_perm.symm
  exact ⟨hnodup, hok, hiff.1 hok, hview hok, hstep v.registry s t lamp.name fan.name rfl rfl (by decide)⟩

end Inventory

end RequestRules
