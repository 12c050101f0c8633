import RequestRules.Proofs.Registry.Run

/-!
# What stands under a context

The names under a context after each change, and the registries that one context is enough for: `Registry.IsOnly`.
Dropping that context leaves such a registry empty, and whatever is done under the context keeps it such.
-/

namespace RequestRules

namespace Registry

variable {r : Registry} {context name : Text}

theorem mem_addName {names : List Text} {n : Text} : n ∈ addName names name ↔ n ∈ names ∨ n = name := by
  unfold addName
  split
  · next h => exact ⟨.inl, fun hn => hn.elim id fun hn => hn ▸ h⟩
  · simp

theorem namesIn_register (r : Registry) (context name c : Text) (d : Descriptor) :
    (r.register context name d).namesIn c = if c = context then addName (r.namesIn context) name else r.namesIn c := by
  unfold namesIn register
  rw [Table.get?_put]
  split <;> rfl

theorem namesIn_remove (r : Registry) (name c : Text) :
    (r.remove name).namesIn c = (r.namesIn c).filter (· ≠ name) := by
  unfold namesIn remove
  simp only [Table.get?_map]
  cases r.contexts.get? c <;> rfl

theorem namesIn_removeContext (r : Registry) (context c : Text) :
    (r.removeContext context).namesIn c = if c = context then [] else r.namesIn c := by
  unfold namesIn removeContext
  rw [Table.get?_erase]
  split <;> rfl

/-- The registry has no other context, and all its items are under this one. -/
def IsOnly (r : Registry) (context : Text) : Prop :=
  (∀ e ∈ r.descriptors, e.1 ∈ r.namesIn context) ∧ ∀ e ∈ r.contexts, e.1 = context

theorem isOnly_empty (context : Text) : IsOnly empty context := by simp [IsOnly, empty]

theorem IsOnly.removeContext_eq (h : r.IsOnly context) : r.removeContext context = empty := by
  have hd : (r.namesIn context).foldl Table.erase r.descriptors = [] := by
    rw [Table.foldl_erase, List.filter_eq_nil_iff]
    intro e he
    simpa using h.1 e he
  have hc : r.contexts.erase context = [] := by
    rw [Table.erase, List.filter_eq_nil_iff]
    intro e he
    simpa using h.2 e he
  show (⟨(r.namesIn context).foldl Table.erase r.descriptors, r.contexts.erase context⟩ : Registry) = ⟨[], []⟩
  rw [hd, hc]

theorem IsOnly.register (h : r.IsOnly context) (name : Text) (d : Descriptor) :
    (r.register context name d).IsOnly context := by
  constructor
  · intro e he
    rw [namesIn_register, if_pos rfl, mem_addName]
    rcases Table.mem_put he with rfl | he
    · exact .inr rfl
    · exact .inl (h.1 e he)
  · intro e he
    rcases Table.mem_put he with rfl | he
    · rfl
    · exact h.2 e he

theorem IsOnly.remove (h : r.IsOnly context) (name : Text) : (r.remove name).IsOnly context := by
  constructor
  · intro e he
    obtain ⟨he, hne⟩ := List.mem_filter.1 he
    rw [namesIn_remove, List.mem_filter]
    exact ⟨h.1 e he, hne⟩
  · intro e he
    obtain ⟨f, hf, rfl⟩ := List.mem_map.1 he
    exact h.2 f hf

theorem IsOnly.process (h : r.IsOnly context) (item : Item) (text : Option Text) :
    (r.process context item text).2.IsOnly context := by
  rcases process_cases r context item text with ⟨d, hp⟩ | hp | hp <;> rw [hp]
  · exact h.register item.name d
  · exact h.remove item.name
  · exact h

end Registry

end RequestRules
