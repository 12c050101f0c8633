import RequestRules.Proofs.Registry.Lookup
import RequestRules.Proofs.Value.Exclusive

/-!
# What an item accepts can be written

The kinds of commands that a type of items accepts are told apart by their texts, and so are the kinds of its states unless
it is the type for texts.  So the written form of a value is read as that value, whichever kind is tried first:

* `Key.resolve_written` — each command has a word in a configuration, and a word is refused exactly if no kind accepts it;
* `ItemType.polled_states` — each state can be polled, except that an item for texts takes everything for a text.
-/

namespace RequestRules

/-! ## Commands -/

theorem ItemType.apart_commands (i : ItemType) : ∀ k ∈ i.commands, ∀ l ∈ i.commands, k ≠ l → k.apart l = true := by
  cases i <;> decide

namespace Key

/-- A word that is no mark is read as a command. -/
theorem resolve_eq_ok {token : Text} {ks : List ValueKind} (hc : token ≠ changed.render) (hw : token ≠ wildcard.render)
    (v : Value) : resolve token ks = .ok (.command v) ↔ Value.readAny? ks token = some v := by
  unfold resolve
  rw [if_neg hc, if_neg hw]
  cases Value.readAny? ks token <;> simp

theorem resolve_eq_error {token : Text} {ks : List ValueKind} (hc : token ≠ changed.render)
    (hw : token ≠ wildcard.render) (e : CommandError) :
    resolve token ks = .error e ↔ e = ⟨token, ks⟩ ∧ Value.readAny? ks token = none := by
  unfold resolve
  rw [if_neg hc, if_neg hw]
  cases Value.readAny? ks token <;> simp [eq_comm]

/-- **Every command can be written in a configuration.**  Whichever of the kinds that a type of items accepts are listed,
and in whatever order, what is written of a command of one of them is resolved to that command, unless it is written like
a mark.  Any word but the marks stands for the value that one of the kinds reads from it, and is refused exactly if none
of them reads it. -/
theorem resolve_written (i : ItemType) {ks : List ValueKind} (hks : ks ⊆ i.commands) :
    (∀ k ∈ ks, ∀ s v, Value.read k s = .ok v → v.render ≠ changed.render → v.render ≠ wildcard.render →
      resolve v.render ks = .ok (.command v)) ∧
    ∀ token, token ≠ changed.render → token ≠ wildcard.render →
      (∀ v, resolve token ks = .ok (.command v) ↔ v.kind ∈ ks ∧ Value.read v.kind token = .ok v) ∧
      ∀ e, resolve token ks = .error e ↔ e = ⟨token, ks⟩ ∧ ∀ k ∈ ks, ∀ v, Value.read k token ≠ .ok v := by
  have hapart : ∀ k ∈ ks, ∀ l ∈ ks, k ≠ l → k.apart l = true :=
    fun k hk l hl => i.apart_commands k (hks hk) l (hks hl)
  refine ⟨fun k hk s v hv hc hw => ?_, fun token hc hw => ⟨fun v => ?_, fun e => ?_⟩⟩
  · have hkind : v.kind ∈ ks := by rwa [Value.kind_read hv]
    have hread : Value.read v.kind v.render = .ok v := Value.read_render (Value.valid_of_read hv)
    exact (resolve_eq_ok hc hw v).2 ((Value.readAny?_eq_some_iff hapart).2 ⟨hkind, hread⟩)
  · rw [resolve_eq_ok hc hw, Value.readAny?_eq_some_iff hapart]
  · rw [resolve_eq_error hc hw, Value.readAny?_eq_none_iff]

/-- A colored light with its kinds of commands the other way round: half brightness is written with an exponent, and three
numbers are no color if one of them is out of range. -/
theorem resolve_written_light :
    let ks : List ValueKind := [.choice .increaseDecrease, .choice .onOff, .percent, .color]
    let half := Value.percent ⟨false, 5, 1⟩
    ks ⊆ ItemType.color.commands ∧ Value.read .percent (.of "0_5e+01") = .ok half ∧
      resolve half.render ks = .ok (.command half) ∧ ∃ e, resolve (.of "361,0,0") ks = .error e := by
  intro ks half
  have hks : ks ⊆ ItemType.color.commands := by decide
  have hread : Value.read .percent (.of "0_5e+01") = .ok half := by decide +kernel
  obtain ⟨hwritten, htokens⟩ := resolve_written .color hks
  have hrefused : ∀ k ∈ ks, ∀ v, Value.read k (.of "361,0,0") ≠ .ok v :=
    Value.readAny?_eq_none_iff.1 (by decide +kernel)
  exact ⟨hks, hread, hwritten .percent (by decide) _ half hread (by decide +kernel) (by decide +kernel),
    _, ((htokens _ (by decide) (by decide)).2 _).2 ⟨rfl, hrefused⟩⟩

end Key

/-! ## States -/

namespace ItemType

theorem apart_states {i : ItemType} (h : i ≠ text) : ∀ k ∈ i.states, ∀ l ∈ i.states, k ≠ l → k.apart l = true := by
  cases i
  case text => exact absurd rfl h
  all_goals decide

/-- An item for texts takes everything for a text. -/
theorem readAny?_states_text (t : Text) : Value.readAny? text.states t = some (.text t) := rfl

end ItemType

namespace Registry

/-- A bound item reads what is polled as one of the states of its type. -/
theorem state?_of_standing {ss : List Step} {item : Item} {rules : Text} (h : Standing ss item rules) (t : Text) :
    (run empty ss).state? item.name t = Value.readAny? item.type.states t := by
  obtain ⟨_, _, _, _, ⟨d, hparse⟩, _⟩ := id h
  have hbound : (run empty ss).descriptor? item.name = some d :=
    (descriptor?_run ss item.name d).2 ⟨item, rules, h, rfl, hparse⟩
  obtain ⟨_, es, _, _, rfl⟩ := Descriptor.parse_eq_ok.1 hparse
  unfold state?
  rw [hbound]
  rfl

end Registry

namespace ItemType

variable {i : ItemType} {k : ValueKind} {s : Text} {v : Value}

/-- **Which states can be polled.**  What is written of a state that a type of items declares is polled as that state, but
by an item for texts as a text.  So the state comes back exactly if the type is not the one for texts, or the state is a
text; and what is polled is what a bound item of the type answers. -/
theorem polled_states (hk : k ∈ i.states) (hv : Value.read k s = .ok v) :
    Value.readAny? i.states v.render = some (if i = text then .text v.render else v) ∧
      ((∃ w, Value.readAny? i.states v.render = some w ∧ w.Same v) ↔ (i = text → k = .text)) ∧
      ∀ ss item rules, Registry.Standing ss item rules → item.type = i →
        (Registry.run .empty ss).state? item.name v.render = Value.readAny? i.states v.render := by
  have hkind : v.kind = k := Value.kind_read hv
  have hpolled : Value.readAny? i.states v.render = some (if i = text then .text v.render else v) := by
    by_cases h : i = text
    · rw [if_pos h, h]
      exact readAny?_states_text v.render
    · have hread : Value.read v.kind v.render = .ok v := Value.read_render (Value.valid_of_read hv)
      rw [if_neg h, Value.readAny?_eq_some_iff (apart_states h), hkind]
      exact ⟨hk, hkind ▸ hread⟩
  refine ⟨hpolled, ?_, fun ss item rules hst htype => ?_⟩
  · rw [hpolled]
    constructor
    · rintro ⟨w, hw, hsame⟩ h
      cases hw
      rw [if_pos h] at hsame
      -- only a text is the same as a text
      cases v with
      | text t => exact hkind.symm
      | _ => exact absurd hsame (by simp [Value.Same])
    · intro h
      refine ⟨_, rfl, ?_⟩
      by_cases hi : i = text
      · rw [if_pos hi]
        cases v with
        | text t => exact Value.Same.refl _
        | _ => exact absurd (hkind.trans (h hi)) (by simp [Value.kind])
      · rw [if_neg hi]
        exact Value.Same.refl v
  · rw [← htype]
    exact Registry.state?_of_standing hst v.render

/-- A dimmer whose rules still stand once another context is dropped is polled half bright. -/
theorem polled_states_dimmer :
    let dimmer : Item := ⟨.dimmer, .of "Ceiling", .of "Ceiling light"⟩
    let rules := Text.of "<[http://x/s:60:default]"
    let ss : List Registry.Step := [.process (.of "a") dimmer (some rules), .removeContext (.of "b")]
    let half := Value.percent ⟨false, 50, 0⟩
    .percent ∈ dimmer.type.states ∧ Value.read .percent (.of "0.50E+2") = .ok half ∧ Registry.Standing ss dimmer rules ∧
      half.render = .of "50" ∧ (Registry.run .empty ss).state? dimmer.name half.render = some half := by
  intro dimmer rules ss half
  have hk : .percent ∈ dimmer.type.states := by decide
  have hread : Value.read .percent (.of "0.50E+2") = .ok half := by decide +kernel
  have hparse : Descriptor.parse dimmer rules = .ok ⟨dimmer.name, dimmer.type.states,
      [(.inbound, { url := .of "http://x/s", interval := 60, transformation := some (.of "default") })]⟩ := by
    decide +kernel
  have hst : Registry.Standing ss dimmer rules := by
    refine ⟨[], .of "a", _, rfl, ⟨_, hparse⟩, ?_, trivial⟩
    show dimmer.name ∉ _
    decide +kernel
  obtain ⟨hpolled, _, hstate⟩ := polled_states hk hread
  refine ⟨hk, hread, hst, by decide +kernel, ?_⟩
  rw [hstate ss dimmer rules hst rfl, hpolled]
  rfl

/-- A panel for texts that is polled while it has no state yet shows the text `NULL`. -/
theorem polled_states_panel :
    let panel : Item := ⟨.text, .of "Panel", .of "Panel"⟩
    let null := Value.word .unDef false
    let r := Registry.run .empty [.process (.of "a") panel (some (.of "<[http://x/s:60:default]"))]
    .choice .unDef ∈ panel.type.states ∧ Value.read (.choice .unDef) (.of "NULL") = .ok null ∧
      r.state? panel.name null.render = some (.text (.of "NULL")) ∧ ¬ (Value.text (.of "NULL")).Same null := by
  intro panel null r
  exact ⟨by decide, rfl, by decide +kernel, by decide⟩

end ItemType

end RequestRules
