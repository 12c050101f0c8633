import RequestRules.Proofs.Registry.Ownership
import RequestRules.Proofs.Registry.Processing

/-!
# Every item stands under a context

A registry is covered when each item with a descriptor stands under some context, so that dropping contexts can reach it.
No change uncovers a registry (`Registry.Covered.step`), and a covered registry without contexts has no items.  So
dropping all contexts of a reached registry leaves no item behind (`Registry.covered_run`).
-/

namespace RequestRules

namespace Registry

variable {r r' : Registry} {context name : Text}

/-! ## What dropping a context leaves -/

theorem itemNames_removeContext (r : Registry) (context : Text) :
    (r.removeContext context).itemNames = r.itemNames.filter (· ∉ r.namesIn context) := by
  have hd : (r.removeContext context).descriptors = (r.namesIn context).foldl Table.erase r.descriptors := rfl
  rw [itemNames, hd, Table.foldl_erase]
  unfold Table.names itemNames Table.names
  rw [List.filter_map]
  rfl

theorem contextNames_removeContext (r : Registry) (context : Text) :
    (r.removeContext context).contextNames = r.contextNames.filter (· ≠ context) := Table.names_erase r.contexts context

theorem mem_contextNames_removeAll (cs : List Text) (r : Registry) {c : Text} :
    c ∈ (r.run (cs.map .removeContext)).contextNames ↔ c ∈ r.contextNames ∧ c ∉ cs := by
  induction cs generalizing r with
  | nil => simp [run]
  | cons d cs ih =>
    have hrun : r.run ((d :: cs).map .removeContext) = (r.removeContext d).run (cs.map .removeContext) := rfl
    rw [hrun, ih, contextNames_removeContext, List.mem_filter, List.mem_cons, not_or, and_assoc, decide_eq_true_eq]

/-! ## Covered registries -/

/-- Each item with a descriptor stands under a context that is there. -/
def Covered (r : Registry) : Prop := ∀ name ∈ r.itemNames, ∃ c ∈ r.contextNames, name ∈ r.namesIn c

theorem covered_empty : Covered empty := by simp [Covered, empty, itemNames, Table.names]

theorem Covered.gains {d : Descriptor} (h : r.Covered) (hg : r.Gains context name d r') : r'.Covered := by
  intro n hn
  by_cases hname : n = name
  · subst hname
    refine ⟨context, ?_, (hg.mem_namesIn context n).2 (.inr ⟨rfl, rfl⟩)⟩
    rw [hg.contextNames]
    split
    · assumption
    · exact List.mem_append_right _ (List.mem_singleton_self context)
  · have hold : n ∈ r.itemNames := by
      rw [hg.itemNames] at hn
      split at hn
      · exact hn
      · exact (List.mem_append.1 hn).resolve_right fun hn => hname (List.mem_singleton.1 hn)
    obtain ⟨c, hc, hin⟩ := h n hold
    refine ⟨c, ?_, (hg.mem_namesIn c n).2 (.inl hin)⟩
    rw [hg.contextNames]
    split
    · exact hc
    · exact List.mem_append_left _ hc

theorem Covered.loses (h : r.Covered) (hl : r.Loses name r') : r'.Covered := by
  intro n hn
  rw [hl.itemNames, List.mem_filter, decide_eq_true_eq] at hn
  obtain ⟨c, hc, hin⟩ := h n hn.1
  exact ⟨c, hl.contextNames ▸ hc, (hl.mem_namesIn c n).2 ⟨hin, hn.2⟩⟩

theorem Covered.removeContext (h : r.Covered) (context : Text) : (r.removeContext context).Covered := by
  intro n hn
  rw [itemNames_removeContext, List.mem_filter, decide_eq_true_eq] at hn
  obtain ⟨c, hc, hin⟩ := h n hn.1
  -- the item would be gone if it stood under the dropped context
  have hne : c ≠ context := fun he => hn.2 (he ▸ hin)
  refine ⟨c, ?_, ?_⟩
  · rw [contextNames_removeContext, List.mem_filter, decide_eq_true_eq]
    exact ⟨hc, hne⟩
  · rwa [namesIn_removeContext, if_neg hne]

/-- **No change uncovers a registry**, also not one that is refused. -/
theorem Covered.step (h : r.Covered) (s : Step) : (r.step s).Covered := by
  cases s with
  | remove n => exact h.loses (r.loses_remove n)
  | removeContext c => exact h.removeContext c
  | process c item text =>
    show (r.process c item text).2.Covered
    generalize hp : r.process c item text = p
    have hprocessed := r.processed_process c item text
    rw [hp] at hprocessed
    cases hprocessed with
    | ignored => exact h
    | accepted _ hg => exact h.gains hg
    | rejected _ _ hl => exact h.loses hl
    | unread => exact h

theorem Covered.run (h : r.Covered) (ss : List Step) : (r.run ss).Covered := by
  induction ss generalizing r with
  | nil => exact h
  | cons s ss ih => exact ih (h.step s)

theorem Covered.itemNames_eq_nil (h : r.Covered) (hnone : r.contextNames = []) : r.itemNames = [] := by
  rw [List.eq_nil_iff_forall_not_mem]
  intro n hn
  obtain ⟨c, hc, _⟩ := h n hn
  rw [hnone] at hc
  exact List.not_mem_nil hc

theorem isBinding_eq_false (h : r.itemNames = []) : r.isBinding = false := by
  have hd : r.descriptors = [] := List.map_eq_nil_iff.1 h
  rw [isBinding, hd]
  rfl

/-- **No item is orphaned.**  After any run each item with a descriptor stands under a context, and dropping all contexts,
in any order, leaves nothing bound. -/
theorem covered_run (ss : List Step) :
    (run empty ss).Covered ∧ ∀ cs, (run empty ss).contextNames ⊆ cs →
      ((run empty ss).run (cs.map .removeContext)).itemNames = [] ∧
        ((run empty ss).run (cs.map .removeContext)).isBinding = false := by
  have hcovered := covered_empty.run ss
  refine ⟨hcovered, fun cs hcs => ?_⟩
  have hnone : ((run empty ss).run (cs.map .removeContext)).contextNames = [] := by
    rw [List.eq_nil_iff_forall_not_mem]
    intro c hc
    obtain ⟨hc, hout⟩ := (mem_contextNames_removeAll cs _).1 hc
    exact hout (hcs hc)
  have hitems := (hcovered.run (cs.map .removeContext)).itemNames_eq_nil hnone
  exact ⟨hitems, isBinding_eq_false hitems⟩

/-- A lamp that has come from one context to another, a fan, and a lamp whose new rules are rejected: the contexts that
are left, dropped from the last to the first. -/
theorem covered_run_lamps :
    let ss := [enlist "a" "Lamp", enlist "c" "Fan", enlist "b" "Lamp", enlist "a" "Spot",
      .process (.of "b") (lampOf "Spot") (some (.of "-")), .removeContext (.of "c")]
    (run empty ss).contextNames = [.of "a", .of "b"] ∧ (run empty ss).itemNames = [.of "Lamp"] ∧
      ((run empty ss).run [.removeContext (.of "b"), .removeContext (.of "a")]).itemNames = [] := by
  intro ss
  have hnames : (run empty ss).contextNames = [.of "a", .of "b"] := by decide +kernel
  have hcs : (run empty ss).contextNames ⊆ [.of "b", .of "a"] := by
    rw [hnames]
    decide
  exact ⟨hnames, by decide +kernel, ((covered_run ss).2 [.of "b", .of "a"] hcs).1⟩

end Registry

end RequestRules
