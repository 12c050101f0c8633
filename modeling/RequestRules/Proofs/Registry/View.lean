import Mathlib.Logic.Function.Basic
import Mathlib.Order.BooleanAlgebra.Set
import RequestRules.Proofs.Registry.Context

/-!
# What can be looked up in a registry

`Registry.view` is a registry without the orders in which names have come up: the descriptor of each item, and the set of
items under each context.

What processing a text or dropping an item does to the view is an edit of one item, which does not depend on the registry
(`Registry.view_process`, `Registry.view_remove`).  Edits of different items commute (`Registry.View.edit_comm`): an edit
may touch every context, but under each of them only its own item (`Registry.View.mem_contexts_edit_other`).
-/

namespace RequestRules

namespace Registry

/-- Descriptors by items, and sets of items by contexts. -/
@[ext]
structure View where
  descriptors : Text → Option Descriptor
  contexts : Text → Option (Set Text)

def view (r : Registry) : View where
  descriptors := r.descriptor?
  contexts c := (r.contexts.get? c).map fun names => {n | n ∈ names}

/-! ## Edits -/

inductive Edit
  | keep
  | file (context : Text) (d : Descriptor)
  | drop

def Edit.descriptor : Edit → Option Descriptor → Option Descriptor
  | .keep, d => d
  | .file _ d, _ => some d
  | .drop, _ => none

def Edit.contexts : Edit → Set Text → Set Text
  | .keep, cs => cs
  | .file c _, cs => insert c cs
  | .drop, _ => ∅

namespace View

def edit (w : View) (name : Text) : Edit → View
  | .keep => w
  | .file context d => {
      descriptors := Function.update w.descriptors name (some d)
      contexts := Function.update w.contexts context (some (insert name ((w.contexts context).getD ∅))) }
  | .drop => {
      descriptors := Function.update w.descriptors name none
      contexts := fun c => (w.contexts c).map fun names => names \ {name} }

variable {n m : Text}

theorem file_file_comm (h : n ≠ m) (w : View) (c c' : Text) (d d' : Descriptor) :
    (w.edit n (.file c d)).edit m (.file c' d') = (w.edit m (.file c' d')).edit n (.file c d) := by
  ext1
  · exact Function.update_comm h _ _ _
  · by_cases hc : c = c'
    · -- both names come into one set
      subst hc
      simp only [edit, Function.update_self, Function.update_idem, Option.getD_some]
      rw [Set.insert_comm]
    · simp only [edit, Function.update_of_ne hc, Function.update_of_ne (Ne.symm hc)]
      exact Function.update_comm hc _ _ _

theorem file_drop_comm (h : n ≠ m) (w : View) (c : Text) (d : Descriptor) :
    (w.edit n (.file c d)).edit m .drop = (w.edit m .drop).edit n (.file c d) := by
  ext1
  · exact Function.update_comm h _ _ _
  · funext c'
    by_cases hc : c' = c
    · subst hc
      have hset : ∀ s : Set Text, insert n s \ {m} = insert n (s \ {m}) := fun s => Set.insert_sdiff_of_notMem s h
      simp only [edit, Function.update_self, Option.map_some, hset]
      cases w.contexts c' <;> simp
    · simp only [edit, Function.update_of_ne hc]

theorem drop_drop_comm (h : n ≠ m) (w : View) : (w.edit n .drop).edit m .drop = (w.edit m .drop).edit n .drop := by
  ext1
  · exact Function.update_comm h _ _ _
  · funext c
    simp only [edit, Option.map_map]
    congr 1
    funext s
    exact Set.sdiff_sdiff_comm

/-- **An edit leaves the other items alone**: their descriptors, and the contexts they are under. -/
theorem descriptors_edit_other (h : m ≠ n) (w : View) (e : Edit) : (w.edit n e).descriptors m = w.descriptors m := by
  cases e with
  | keep => rfl
  | file c d => exact Function.update_of_ne h _ _
  | drop => exact Function.update_of_ne h _ _

theorem mem_contexts_edit_other (h : m ≠ n) (w : View) (e : Edit) (c : Text) :
    m ∈ ((w.edit n e).contexts c).getD ∅ ↔ m ∈ (w.contexts c).getD ∅ := by
  cases e with
  | keep => rfl
  | file c' d =>
    show m ∈ (Function.update w.contexts c' _ c).getD ∅ ↔ _
    rw [Function.update_apply]
    split
    · next hc => simp [hc, h]
    · rfl
  | drop =>
    show m ∈ ((w.contexts c).map fun names => names \ {n}).getD ∅ ↔ _
    cases w.contexts c <;> simp [h]

theorem descriptors_edit_self (w : View) (n : Text) (e : Edit) :
    (w.edit n e).descriptors n = e.descriptor (w.descriptors n) := by
  cases e with
  | keep => rfl
  | file c d => exact Function.update_self ..
  | drop => exact Function.update_self ..

theorem mem_contexts_edit_self (w : View) (n : Text) (e : Edit) (c : Text) :
    n ∈ ((w.edit n e).contexts c).getD ∅ ↔ c ∈ e.contexts {c | n ∈ (w.contexts c).getD ∅} := by
  cases e with
  | keep => rfl
  | file c' d =>
    show n ∈ (Function.update w.contexts c' _ c).getD ∅ ↔ _
    rw [Function.update_apply]
    by_cases hc : c = c' <;> simp [Edit.contexts, hc]
  | drop =>
    show n ∈ ((w.contexts c).map fun names => names \ {n}).getD ∅ ↔ _
    cases w.contexts c <;> simp [Edit.contexts]

/-- **Edits of different items commute.** -/
theorem edit_comm (h : n ≠ m) (w : View) (e f : Edit) : (w.edit n e).edit m f = (w.edit m f).edit n e := by
  cases e with
  | keep => rfl
  | file c d =>
    cases f with
    | keep => rfl
    | file c' d' => exact file_file_comm h w c c' d d'
    | drop => exact file_drop_comm h w c d
  | drop =>
    cases f with
    | keep => rfl
    | file c d => exact (file_drop_comm h.symm w c d).symm
    | drop => exact drop_drop_comm h w

end View

/-! ## Changes as edits -/

theorem view_register (r : Registry) (context name : Text) (d : Descriptor) :
    (r.register context name d).view = r.view.edit name (.file context d) := by
  ext1
  · funext n
    show (r.register context name d).descriptor? n = Function.update r.descriptor? name (some d) n
    rw [descriptor?_register, Function.update_apply]
  · funext c
    show Option.map _ ((r.register context name d).contexts.get? c) = Function.update r.view.contexts context _ c
    rw [register, Table.get?_put, Function.update_apply]
    split
    · have hset : ∀ names : List Text, {n | n ∈ addName names name} = insert name {n | n ∈ names} := by
        intro names
        ext n
        exact mem_addName.trans or_comm
      rw [Option.map_some, hset]
      cases hc : r.contexts.get? context <;> simp [view, hc]
    · rfl

theorem view_remove (r : Registry) (name : Text) : (r.remove name).view = r.view.edit name .drop := by
  ext1
  · funext n
    show (r.remove name).descriptor? n = Function.update r.descriptor? name none n
    rw [descriptor?_remove, Function.update_apply]
  · funext c
    have hset : ∀ names : List Text, {n | n ∈ names.filter (· ≠ name)} = {n | n ∈ names} \ {name} := by
      intro names
      ext n
      simp
    show Option.map _ ((r.remove name).contexts.get? c) = Option.map _ (r.view.contexts c)
    simp only [remove, Table.get?_map, view, Option.map_map]
    congr 1
    funext names
    exact hset names

/-- What processing a text does to its item. -/
def Edit.ofText (context : Text) (item : Item) (text : Option Text) : Edit :=
  match text with
  | none => .keep
  | some t =>
    match Descriptor.parse item t with
    | .ok d => .file context d
    | .error (.rejected _) => .drop
    | .error _ => .keep

section OfText

variable {context : Text} {item : Item} {t : Text}

theorem Edit.ofText_of_ok {d : Descriptor} (h : Descriptor.parse item t = .ok d) :
    ofText context item (some t) = .file context d := by
  simp only [ofText, h]

theorem Edit.ofText_of_rejected {e : Rejection} (h : Descriptor.parse item t = .error (.rejected e)) :
    ofText context item (some t) = .drop := by
  simp only [ofText, h]

/-- A fault that is no rejection changes nothing. -/
theorem Edit.ofText_of_fault {e : DescriptorError} (h : Descriptor.parse item t = .error e) (hne : ∀ x, e ≠ .rejected x) :
    ofText context item (some t) = .keep := by
  cases e with
  | rejected x => exact absurd rfl (hne x)
  | _ => simp only [ofText, h]

end OfText

theorem view_process (r : Registry) (context : Text) (item : Item) (text : Option Text) :
    (r.process context item text).2.view = r.view.edit item.name (.ofText context item text) := by
  cases text with
  | none => rfl
  | some t =>
    rcases process_some_cases r context item t with ⟨d, hp, hr⟩ | ⟨e, hp, hr⟩ | ⟨e, hp, hne, hr⟩ <;> rw [hr]
    · rw [Edit.ofText_of_ok hp]
      exact view_register r context item.name d
    · rw [Edit.ofText_of_rejected hp]
      exact view_remove r item.name
    · rw [Edit.ofText_of_fault hp hne]
      rfl

/-- The item that a change concerns, if it is about one. -/
def Step.item? : Step → Option Text
  | .process _ item _ => some item.name
  | .remove name => some name
  | .removeContext _ => none

theorem exists_edit {s : Step} {name : Text} (h : s.item? = some name) :
    ∃ e : Edit, ∀ r : Registry, (r.step s).view = r.view.edit name e := by
  cases s with
  | process context item text =>
    cases h
    exact ⟨_, fun r => r.view_process context item text⟩
  | remove n =>
    cases h
    exact ⟨_, fun r => r.view_remove name⟩
  | removeContext c => exact absurd h (by simp [Step.item?])

/-- **Changes of different items commute**, whether their texts are accepted or not. -/
theorem view_step_comm {s t : Step} {n m : Text} (hs : s.item? = some n) (ht : t.item? = some m) (h : n ≠ m)
    (r : Registry) : ((r.step s).step t).view = ((r.step t).step s).view := by
  obtain ⟨e, he⟩ := exists_edit hs
  obtain ⟨f, hf⟩ := exists_edit ht
  rw [hf, he, he, hf, View.edit_comm h]

end Registry

end RequestRules
