import RequestRules.Proofs.Rejection
import RequestRules.Proofs.Registry.Context

/-!
# Processing is all or nothing

Processing the rules of an item either files the descriptor of all of them, or leaves the item without one, and touches
no other item either way (`Registry.processed_process`).  `Registry.Gains` and `Registry.Loses` say what changes and that
nothing else does, as far as a registry can be looked at: the bound items in order, their descriptors, the contexts in
order, and the names under each.
-/

namespace RequestRules

namespace Registry

def contextNames (r : Registry) : List Text := r.contexts.names

/-- `r'` is `r` with a descriptor for the item, which stands under the context too. -/
structure Gains (r : Registry) (context name : Text) (d : Descriptor) (r' : Registry) : Prop where
  /-- an item that was bound stays where it was -/
  itemNames : r'.itemNames = if name ∈ r.itemNames then r.itemNames else r.itemNames ++ [name]
  descriptor? : ∀ n, r'.descriptor? n = if n = name then some d else r.descriptor? n
  contextNames : r'.contextNames = if context ∈ r.contextNames then r.contextNames else r.contextNames ++ [context]
  mem_namesIn : ∀ c n, n ∈ r'.namesIn c ↔ n ∈ r.namesIn c ∨ (c = context ∧ n = name)

/-- `r'` is `r` without the item, which stands under no context any more. -/
structure Loses (r : Registry) (name : Text) (r' : Registry) : Prop where
  itemNames : r'.itemNames = r.itemNames.filter (· ≠ name)
  descriptor? : ∀ n, r'.descriptor? n = if n = name then none else r.descriptor? n
  /-- also a context without names stays, and none is made -/
  contextNames : r'.contextNames = r.contextNames
  mem_namesIn : ∀ c n, n ∈ r'.namesIn c ↔ n ∈ r.namesIn c ∧ n ≠ name

variable (r : Registry)

theorem gains_register (context name : Text) (d : Descriptor) : r.Gains context name d (r.register context name d) where
  itemNames := Table.names_put r.descriptors name d
  descriptor? n := descriptor?_register r context name n d
  contextNames := Table.names_put r.contexts context _
  mem_namesIn c n := by
    rw [namesIn_register]
    by_cases hc : c = context
    · have hmem : n ∈ addName (r.namesIn context) name ↔ n ∈ r.namesIn context ∨ n = name := mem_addName
      rw [if_pos hc, hc, hmem]
      simp
    · rw [if_neg hc]
      simp [hc]

theorem loses_remove (name : Text) : r.Loses name (r.remove name) where
  itemNames := Table.names_erase r.descriptors name
  descriptor? n := descriptor?_remove r name n
  contextNames := Table.names_map r.contexts _
  mem_namesIn c n := by
    rw [namesIn_remove, List.mem_filter]
    simp

/-- What processing a text answers, and the registry that it leaves behind. -/
inductive Processed (context : Text) (item : Item) :
    Option Text → Except DescriptorError (Option Descriptor) × Registry → Prop
  /-- without a text nothing happens -/
  | ignored : Processed context item none (.ok none, r)
  /-- a descriptor is filed for all rules together -/
  | accepted {text : Text} {d : Descriptor} {r' : Registry} (parsed : Descriptor.parse item text = .ok d)
      (gains : r.Gains context item.name d r') : Processed context item (some text) (.ok (some d), r')
  /-- a rejected text drops the item, however many of the rules are good -/
  | rejected {text : Text} {e : Rejection} {r' : Registry} (parsed : Descriptor.parse item text = .error (.rejected e))
      (removed : r' = r.remove item.name) (loses : r.Loses item.name r') :
      Processed context item (some text) (.error (.rejected e), r')
  /-- an interval of too many digits is no rejection -/
  | unread {text : Text} {n : Nat} (parsed : Descriptor.parse item text = .error (.longInterval n)) :
      Processed context item (some text) (.error (.longInterval n), r)

/-- **Processing is all or nothing**, and concerns one item only. -/
theorem processed_process (context : Text) (item : Item) (text : Option Text) :
    Processed r context item text (r.process context item text) := by
  cases text with
  | none => exact .ignored
  | some t =>
    rcases process_some_cases r context item t with ⟨d, hp, hr⟩ | ⟨e, hp, hr⟩ | ⟨e, hp, hne, hr⟩ <;> rw [hr]
    · exact .accepted hp (r.gains_register context item.name d)
    · exact .rejected hp rfl (r.loses_remove item.name)
    · -- of the faults that are no rejections only one arises
      rcases Descriptor.parse_error hp with ⟨g | n, _, rfl⟩ | ⟨c, rfl⟩
      · exact absurd rfl (hne (.grammar g))
      · exact .unread hp
      · exact absurd rfl (hne (.command c))

/-- A faulty rule behind a good one drops a lamp from both contexts where it stands, and makes none. -/
example :
    let lamp : Item := ⟨.switch, .of "Lamp", .of "Lamp"⟩
    let d := Descriptor.ofEntries lamp.name lamp.type.states []
    let r : Registry := ⟨[(lamp.name, d), (.of "Fan", d)], [(.of "a", [lamp.name]), (.of "b", [.of "Fan", lamp.name])]⟩
    (r.process (.of "c") lamp (some (.of ">[ON:GET:http://x/on] <[http://x/s:soon:default]"))).2 =
      ⟨[(.of "Fan", d)], [(.of "a", []), (.of "b", [.of "Fan"])]⟩ := by
  decide +kernel

end Registry

end RequestRules
