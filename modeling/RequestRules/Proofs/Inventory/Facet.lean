import RequestRules.Proofs.Inventory.Order
import RequestRules.Proofs.Rejection

/-!
# What registering answers

What an inventory has for one name is a `Facet`: the item, its rejection, its descriptor, and the contexts it is under.
Registering an item leaves the facets of other names alone (`View.facet_register_other`), and changes that of its own name
by what is made of the rules, which does not depend on the inventory (`View.facet_register`).

`Answered` sets the facet before, the answer and the facet after against each other.  The answer `Agrees` with the inventory
that is left if the item is bound and has no rejection, or is unbound and has one.  An answer to rules always does.  Without
rules the answer is that of accepted rules, and only the rejection that was held is dropped; so then the answer agrees if
the item was bound before, and only then (`register_answer`).
-/

namespace RequestRules

namespace Inventory

/-! ## One name -/

/-- What is there for one name. -/
@[ext]
structure Facet where
  item : Option Item
  rejection : Option Rejection
  descriptor : Option Descriptor
  contexts : Set Text

def View.facet (w : View) (name : Text) : Facet where
  item := w.items name
  rejection := w.errors name
  descriptor := w.registry.descriptors name
  contexts := {c | name ∈ (w.registry.contexts c).getD ∅}

def facet (v : Inventory) (name : Text) : Facet where
  item := v.items.get? name
  rejection := v.errors.get? name
  descriptor := v.registry.descriptor? name
  contexts := {c | name ∈ v.registry.namesIn c}

theorem facet_view (v : Inventory) (name : Text) : v.view.facet name = v.facet name := by
  ext1
  · rfl
  · rfl
  · rfl
  · ext c
    show name ∈ ((v.registry.contexts.get? c).map fun names => {n | n ∈ names}).getD ∅ ↔
      name ∈ (v.registry.contexts.get? c).getD []
    cases v.registry.contexts.get? c <;> simp

/-- The facet with another rejection, or none, and an edit of the registry. -/
def Facet.edit (f : Facet) (rejection : Option Rejection) (e : Registry.Edit) : Facet where
  item := f.item
  rejection := rejection
  descriptor := e.descriptor f.descriptor
  contexts := e.contexts f.contexts

/-! ## Registering an item -/

section Register

variable {name context : Text} {item : Item} {rules : Option Text}

/-- **Registering an item leaves other names alone.** -/
theorem View.facet_register_other (h : name ≠ item.name) (w : View) :
    (w.register context item rules).facet name = w.facet name := by
  ext1
  · rfl
  · exact Function.update_of_ne h _ _
  · exact Registry.View.descriptors_edit_other h w.registry _
  · ext c
    exact Registry.View.mem_contexts_edit_other h w.registry _ c

theorem View.facet_register (w : View) : (w.register context item rules).facet item.name =
    (w.facet item.name).edit (rejection? item rules) (.ofText context item rules) := by
  ext1
  · rfl
  · exact Function.update_self ..
  · exact Registry.View.descriptors_edit_self w.registry _ _
  · ext c
    exact Registry.View.mem_contexts_edit_self w.registry _ _ c

variable (v : Inventory)

theorem facet_register_other (h : name ≠ item.name) : (v.register context item rules).2.facet name = v.facet name := by
  rw [← facet_view, ← facet_view, view_register, View.facet_register_other h]

theorem facet_register : (v.register context item rules).2.facet item.name =
    (v.facet item.name).edit (rejection? item rules) (.ofText context item rules) := by
  rw [← facet_view, ← facet_view, view_register, View.facet_register]

end Register

/-! ## Answers -/

/-- What registering answers, for the facet before and the facet after. -/
inductive Answered (f : Facet) (context : Text) (item : Item) :
    Option Text → Except DescriptorError Bool → Facet → Prop
  | accepted {text : Text} {d : Descriptor} (parsed : Descriptor.parse item text = .ok d) :
      Answered f context item (some text) (.ok true)
        { f with rejection := none, descriptor := some d, contexts := insert context f.contexts }
  | rejected {text : Text} {r : Rejection} (parsed : Descriptor.parse item text = .error (.rejected r)) :
      Answered f context item (some text) (.ok false) { f with rejection := some r, descriptor := none, contexts := ∅ }
  /-- without rules only the rejection goes -/
  | ignored : Answered f context item none (.ok true) { f with rejection := none }
  /-- an interval of too many digits is no answer; the rejection goes before it is noticed -/
  | unread {text : Text} {n : Nat} (parsed : Descriptor.parse item text = .error (.longInterval n)) :
      Answered f context item (some text) (.error (.longInterval n)) { f with rejection := none }

theorem answered_register (v : Inventory) (context : Text) (item : Item) (rules : Option Text) :
    Answered (v.facet item.name) context item rules (v.register context item rules).1
      ((v.register context item rules).2.facet item.name) := by
  rw [facet_register]
  rcases register_cases v context item rules with
    ⟨rfl, hr⟩ | ⟨t, d, rfl, hp, hr⟩ | ⟨t, r, rfl, hp, hr⟩ | ⟨t, x, rfl, hp, hne, hr⟩ <;> rw [hr]
  · exact .ignored
  · rw [rejection?_of_ok hp, Registry.Edit.ofText_of_ok hp]
    exact .accepted hp
  · rw [rejection?_of_rejected hp, Registry.Edit.ofText_of_rejected hp]
    exact .rejected hp
  · rw [rejection?_of_fault hp hne, Registry.Edit.ofText_of_fault hp hne]
    -- of the faults that are no rejections only one arises
    rcases Descriptor.parse_error hp with ⟨g | n, _, rfl⟩ | ⟨c, rfl⟩
    · exact absurd rfl (hne (.grammar g))
    · exact .unread hp
    · exact absurd rfl (hne (.command c))

/-- The answer is true of the name: it is bound if the answer is yes, and has a rejection if it is no, and not both. -/
def Agrees (v : Inventory) (name : Text) (answer : Bool) : Prop :=
  v.registry.binds name = answer ∧ v.errors.has name = !answer

instance (v : Inventory) (name : Text) (answer : Bool) : Decidable (v.Agrees name answer) :=
  inferInstanceAs (Decidable (_ ∧ _))

theorem agrees_iff {v : Inventory} {name : Text} {answer : Bool} : v.Agrees name answer ↔
    (v.facet name).descriptor.isSome = answer ∧ (v.facet name).rejection.isSome = !answer := Iff.rfl

theorem Answered.agrees_iff {f g : Facet} {context : Text} {item : Item} {rules : Option Text}
    {answer : Except DescriptorError Bool} (h : Answered f context item rules answer g) :
    (∀ b, answer = .ok b → g.descriptor.isSome = b ∧ g.rejection.isSome = !b) ↔
      rules ≠ none ∨ f.descriptor.isSome = true := by
  cases h with
  | accepted _ => simp
  | rejected _ => simp
  | ignored => simp
  | unread _ => simp

/-- **Answers to rules are true.**  Registering an item leaves other names as they are.  For its own name the answer and what
is left are told by `Answered`; if there is an answer, it is true of what is left, unless there were no rules and the item was
unbound. -/
theorem register_answer (v : Inventory) (context : Text) (item : Item) (rules : Option Text) :
    let answer := (v.register context item rules).1
    let w := (v.register context item rules).2
    Answered (v.facet item.name) context item rules answer (w.facet item.name) ∧
    ((∀ b, answer = .ok b → w.Agrees item.name b) ↔ rules ≠ none ∨ v.registry.binds item.name = true) ∧
    ∀ name, name ≠ item.name → w.facet name = v.facet name := by
  intro answer w
  have hanswered : Answered (v.facet item.name) context item rules answer (w.facet item.name) :=
    answered_register v context item rules
  refine ⟨hanswered, ?_, fun name hname => facet_register_other v hname⟩
  simp only [agrees_iff]
  exact hanswered.agrees_iff

/-- A lamp whose rules are rejected is registered once more, without rules: the answer is yes, and the lamp is unbound, with
no rejection any more. -/
theorem register_answer_untrue :
    let lamp : Item := ⟨.switch, .of "Lamp", .of "Lamp"⟩
    let v := (({} : Inventory).register context lamp (some (.of "-"))).2
    let w := (v.register context lamp none).2
    v.Agrees lamp.name false ∧ (v.register context lamp none).1 = .ok true ∧ ¬ w.Agrees lamp.name true ∧
      w.registry.binds lamp.name = false ∧ w.errors = [] := by
  decide +kernel

end Inventory

end RequestRules
