import RequestRules.Proofs.Hub

/-!
# A hub is what a start with its content would give

After a start and any number of reloads, of which any may fail, a hub is the one that a start with the content it holds
gives: its configuration, its items, their errors, descriptors and contexts (`Hub.after_eq_start`).  So the inventory
tells nothing about the past, not even about other domains of the content.
-/

namespace RequestRules

namespace Hub

theorem Settled.eq_start {h : Hub} (hs : h.Settled) : h = (ofContent h.configuration.content).start.2 := by
  have hconfiguration : h.configuration = (ofContent h.configuration.content).start.2.configuration := by
    rw [configuration_start, ← hs.domains]
  calc h = ⟨h.configuration, h.inventory⟩ := rfl
    _ = ⟨(ofContent h.configuration.content).start.2.configuration, loaded h.configuration.content⟩ := by
      rw [← hconfiguration, ← hs.inventory]
    _ = (ofContent h.configuration.content).start.2 := rfl

/-- What a start loads depends on the items of the content only. -/
theorem loaded_congr {held held' : Setting} (h : items? held = items? held') : loaded held = loaded held' := by
  cases ht : items? held with
  | none =>
    have hnone : items? held' = none := h ▸ ht
    rw [loaded_of_none ht, loaded_of_none hnone]
  | some t =>
    have hsome : items? held' = some t := h ▸ ht
    rw [loaded_of_some ht, loaded_of_some hsome]

/-- **Nothing of the past survives.**  A hub is the one that a start with the content it holds gives, whatever has been
started with and reloaded before; and hubs that hold the same items have the same inventory. -/
theorem after_eq_start (content : Setting) (versions : List (Except ConfigurationError Setting)) :
    let h := after content versions
    h = (ofContent h.configuration.content).start.2 ∧
      ∀ content' versions', items? (after content' versions').configuration.content = items? h.configuration.content →
        (after content' versions').inventory = h.inventory := by
  intro h
  have hs : h.Settled := settled_after content versions
  refine ⟨hs.eq_start, fun content' versions' hitems => ?_⟩
  have hs' : (after content' versions').Settled := settled_after content' versions'
  rw [hs'.inventory, hs.inventory]
  exact loaded_congr hitems

/-- An item with faulty rules that came with a reload after the file had been missing and invalid, and the same item from
a start, beside a domain that nobody uses. -/
theorem after_eq_start_other_domain :
    let items := Setting.list [.map [(.text (.of "name"), .text (.of "B")), (.text (.of "type"), .text (.of "Switch")),
      (.text (.of "http"), .text (.of "-"))]]
    let versions := [.error (.noFile (.of "configuration.yaml")), .ok (ofItem "A" (.int 1)),
      .ok (.map [(itemsKey, items)])]
    let h := after (ofItem "A" (.bool true)) versions
    let content := Setting.map [(.text (.of "log"), .bool true), (itemsKey, items)]
    items? (after content []).configuration.content = items? h.configuration.content ∧
      h = (ofContent h.configuration.content).start.2 ∧ (after content []).inventory = h.inventory := by
  intro items versions h content
  have hitems : items? (after content []).configuration.content = items? h.configuration.content := rfl
  obtain ⟨hstart, hsame⟩ := after_eq_start (ofItem "A" (.bool true)) versions
  exact ⟨hitems, hstart, hsame content [] hitems⟩

end Hub

end RequestRules
