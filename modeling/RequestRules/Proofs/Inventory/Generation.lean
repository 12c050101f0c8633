import RequestRules.Proofs.Inventory.Facet

/-!
# The generation that is loaded

Loading replaces the items of the configuration by those of a list of entries, in which a name may stand several times.
What is there for each name is said by its `Facet`:

* `View.facet_add_other` — an entry does not change the facets of other names;
* `View.facet_put` — the facet of its own name is what the entry says, whatever was there before;
* `facet_clear` — what dropping the context leaves of a name.

So the facet of a name is what its last enabled entry says, and without one it is what was left of it:
`load_generation`, for every inventory and all entries that are loaded.
-/

namespace RequestRules

/-! ## What an entry says -/

namespace Entry

def Enables (name : Text) (e : Setting) : Prop :=
  ∃ fields, e = .map fields ∧ Setting.field? "enabled" fields = some (.bool true) ∧
    Setting.field? "name" fields = some (.text name)

/-- The item that the fields of an entry are about, and its rules.  Without a label, or with an empty one, the name is the
label. -/
structure Describes (fields : List (Setting × Setting)) (item : Item) (rules : Text) : Prop where
  type : Setting.field? "type" fields = some (.text item.type.name)
  name : Setting.field? "name" fields = some (.text item.name)
  labelled : ∀ t, Setting.field? "label" fields = some (.text t) → t ≠ [] → item.label = t
  unlabelled : Setting.field? "label" fields = none ∨ Setting.field? "label" fields = some (.text []) →
    item.label = item.name
  rules : Setting.field? "http" fields = some (.text rules)

variable {fields : List (Setting × Setting)} {type : ItemType} {n name rules : Text} {isEnabled : Bool}

theorem Valid.describes (h : Valid fields type name rules isEnabled) :
    Describes fields (itemOf fields type name) rules where
  type := h.type
  name := h.name
  labelled := by
    intro t ht hne
    simp only [itemOf, Entry.label, ht]
    cases t with
    | nil => exact absurd rfl hne
    | cons c t => rfl
  unlabelled := by
    rintro (ht | ht) <;> simp only [itemOf, Entry.label, ht, Item.labelOr]
  rules := h.rules

theorem Valid.enables_iff (h : Valid fields type n rules isEnabled) :
    Enables name (.map fields) ↔ isEnabled = true ∧ n = name := by
  constructor
  · rintro ⟨_, heq, henabled, hname⟩
    cases heq
    rw [h.enabled] at henabled
    rw [h.name] at hname
    cases henabled
    cases hname
    exact ⟨rfl, rfl⟩
  · rintro ⟨rfl, rfl⟩
    exact ⟨fields, rfl, h.enabled, h.name⟩

theorem Valid.name?_eq (h : Valid fields type n rules isEnabled) :
    Entry.name? (.map fields) = if isEnabled then some n else none := by
  unfold Entry.name?
  rw [h.read_eq]
  cases isEnabled <;> rfl

end Entry

namespace Inventory

/-! ## One name -/

/-- What the context leaves behind when it is dropped: no items, no rejections, and the names that are not under it. -/
theorem facet_clear (v : Inventory) (name : Text) : v.clear.facet name = {
    item := none
    rejection := none
    descriptor := if name ∈ v.registry.namesIn context then none else v.registry.descriptor? name
    contexts := {c | c ≠ context ∧ name ∈ v.registry.namesIn c} } := by
  ext1
  · rfl
  · rfl
  · exact v.registry.descriptor?_removeContext context name
  · ext c
    show name ∈ (v.registry.removeContext context).namesIn c ↔ _
    rw [Registry.namesIn_removeContext]
    by_cases hc : c = context <;> simp [hc]

namespace View

variable {w : View} {name : Text} {item : Item} {rules : Option Text}

theorem facet_put_other (h : name ≠ item.name) (w : View) : (w.put item rules).facet name = w.facet name := by
  rw [put_eq, facet_register_other h]
  ext1
  · exact Function.update_of_ne h _ _
  · rfl
  · rfl
  · rfl

/-- **An entry leaves other names alone.** -/
theorem facet_add_other {e : Setting} (h : Entry.name? e ≠ some name) (w : View) :
    (w.add e).facet name = w.facet name := by
  rcases add_eq e with he | ⟨item, rules, hitem, he⟩ <;> rw [he]
  exact facet_put_other (fun heq => h (by rw [hitem, heq])) w

theorem facet_foldl_other {es : List Setting} (h : ∀ e ∈ es, Entry.name? e ≠ some name) (w : View) :
    (es.foldl add w).facet name = w.facet name := by
  induction es generalizing w with
  | nil => rfl
  | cons e es ih =>
    rw [List.foldl_cons, ih (fun e he => h e (List.mem_cons_of_mem _ he)), facet_add_other (h e List.mem_cons_self)]

/-- **What an entry says of its own name** takes the place of anything that was there. -/
theorem facet_put (w : View) (item : Item) (t : Text) :
    (∀ d, Descriptor.parse item t = .ok d → (w.put item (some t)).facet item.name =
      ⟨some item, none, some d, insert context (w.facet item.name).contexts⟩) ∧
    ∀ r, Descriptor.parse item t = .error (.rejected r) → (w.put item (some t)).facet item.name =
      ⟨some item, some r, none, ∅⟩ := by
  have hitem : ({ w with items := Function.update w.items item.name (some item) } : View).facet item.name =
      { w.facet item.name with item := some item } := by
    ext1
    · exact Function.update_self ..
    · rfl
    · rfl
    · rfl
  rw [put_eq, facet_register, hitem]
  constructor
  · intro d hd
    rw [Registry.Edit.ofText_of_ok hd, rejection?_of_ok hd]
    rfl
  · intro r hr
    rw [Registry.Edit.ofText_of_rejected hr, rejection?_of_rejected hr]
    rfl

end View

/-! ## Whole lists -/

/-- The inventory has an item with its rules: they are accepted, and the item is bound under the context, or they are
rejected, which is kept, and the item is unbound. -/
inductive Holds (v : Inventory) (item : Item) (rules : Text) : Prop
  | accepted (d : Descriptor) (parse : Descriptor.parse item rules = .ok d)
    (bound : v.registry.descriptor? item.name = some d) (cleared : v.errors.get? item.name = none)
    (listed : item.name ∈ v.registry.namesIn context)
  | rejected (r : Rejection) (parse : Descriptor.parse item rules = .error (.rejected r))
    (unbound : v.registry.descriptor? item.name = none) (kept : v.errors.get? item.name = some r)
    (unlisted : ∀ c, item.name ∉ v.registry.namesIn c)

variable {v : Inventory} {entries : List Setting}

/-- The rules of an entry that is added are accepted or rejected. -/
theorem parse_of_add {e : Setting} {item : Item} {t : Text} (hread : Entry.read e = .ok (.enabled item (.ok (some t))))
    (h : (v.add e).1 = .ok ()) :
    (∃ d, Descriptor.parse item t = .ok d) ∨ ∃ r, Descriptor.parse item t = .error (.rejected r) := by
  rcases add_ok h with ⟨hdisabled, _⟩ | ⟨item', rules, w, hread', _, ⟨b, hb⟩, _⟩
  · exact absurd (hread.symm.trans hdisabled) (by simp)
  · cases hread.symm.trans hread'
    rcases register_cases w context item (some t) with
      ⟨hnone, _⟩ | ⟨t', d, ht, hp, _⟩ | ⟨t', r, ht, hp, _⟩ | ⟨t', x, _, _, _, hr⟩
    · exact absurd hnone (by simp)
    · cases ht
      exact .inl ⟨d, hp⟩
    · cases ht
      exact .inr ⟨r, hp⟩
    · rw [hr] at hb
      exact absurd hb (by simp)

theorem name?_eq_some_iff {s : Setting} (hcheck : schema.check s = .ok (.list entries)) {e : Setting} (he : e ∈ entries)
    (name : Text) : Entry.name? e = some name ↔ Entry.Enables name e := by
  obtain ⟨fields, type, n, rules, isEnabled, rfl, hv⟩ := valid_of_mem hcheck he
  rw [hv.name?_eq, hv.enables_iff]
  cases isEnabled <;> simp

theorem facet_load (hload : (v.load (.list entries)).1 = .ok ()) (name : Text) :
    (v.load (.list entries)).2.facet name = (entries.foldl View.add v.clear.view).facet name := by
  rw [← facet_view]
  exact congrArg (View.facet · name) (view_addAll (v := v.clear) hload)

/-- **The last enabled entry** of a name says what is there for it. -/
theorem holds_of_last {s : Setting} (hcheck : schema.check s = .ok (.list entries))
    (hload : (v.load (.list entries)).1 = .ok ()) {name : Text} {before after : List Setting}
    {fields : List (Setting × Setting)} (hentries : entries = before ++ .map fields :: after)
    (henables : Entry.Enables name (.map fields)) (hlast : ∀ e ∈ after, ¬ Entry.Enables name e) :
    ∃ item rules, item.name = name ∧ Entry.Describes fields item rules ∧
      (v.load (.list entries)).2.items.get? name = some item ∧ (v.load (.list entries)).2.Holds item rules := by
  have hmem : Setting.map fields ∈ entries := by simp [hentries]
  obtain ⟨fields', type, n, rules, isEnabled, heq, hv⟩ := valid_of_mem hcheck hmem
  cases heq
  obtain ⟨rfl, rfl⟩ := hv.enables_iff.1 henables
  have hread : Entry.read (.map fields) = .ok (.enabled (Entry.itemOf fields type n) (.ok (some rules))) := hv.read_eq
  -- behind the last entry the name is left alone
  have hfacet : (v.load (.list entries)).2.facet n =
      ((before.foldl View.add v.clear.view).put (Entry.itemOf fields type n) (some rules)).facet n := by
    have hadd : ∀ w : View, w.add (.map fields) = w.put (Entry.itemOf fields type n) (some rules) := fun w => by
      rw [View.add, hread]
    rw [facet_load hload, hentries, List.foldl_append, List.foldl_cons, hadd, View.facet_foldl_other]
    intro e he hname
    exact hlast e he ((name?_eq_some_iff hcheck (by simp [hentries, he]) n).1 hname)
  obtain ⟨haccepted, hrejected⟩ := View.facet_put (before.foldl View.add v.clear.view) (Entry.itemOf fields type n) rules
  refine ⟨Entry.itemOf fields type n, rules, rfl, hv.describes, ?_⟩
  rcases parse_of_add hread (addAll_eq_ok.1 hload _ hmem) with ⟨d, hd⟩ | ⟨r, hr⟩
  · have h := hfacet.trans (haccepted d hd)
    have hcontext : context ∈ ((v.load (.list entries)).2.facet n).contexts := by
      rw [h]
      exact Set.mem_insert _ _
    exact ⟨congrArg Facet.item h, .accepted d hd (congrArg Facet.descriptor h) (congrArg Facet.rejection h) hcontext⟩
  · have h := hfacet.trans (hrejected r hr)
    have hcontexts := congrArg Facet.contexts h
    exact ⟨congrArg Facet.item h, .rejected r hr (congrArg Facet.descriptor h) (congrArg Facet.rejection h)
      fun c hc => (Set.ext_iff.1 hcontexts c).1 hc⟩

/-- **Exactly the new generation is there**, whatever was there before.  There is an item for each name that an entry
enables, and for no other; it is the one that the last entry of the name describes, and it is bound, or its rejection
is kept.  A name that no entry enables has no rejection; it is unbound if it was under the context, and if it was not, it
keeps its descriptor and its contexts. -/
theorem load_generation {s : Setting} (hcheck : schema.check s = .ok (.list entries))
    (hload : (v.load (.list entries)).1 = .ok ()) (name : Text) :
    let w := (v.load (.list entries)).2
    ((∃ item, w.items.get? name = some item) ↔ ∃ e ∈ entries, Entry.Enables name e) ∧
      (∀ before fields after, entries = before ++ .map fields :: after → Entry.Enables name (.map fields) →
        (∀ e ∈ after, ¬ Entry.Enables name e) → ∃ item rules, item.name = name ∧
          Entry.Describes fields item rules ∧ w.items.get? name = some item ∧ w.Holds item rules) ∧
      ((∀ e ∈ entries, ¬ Entry.Enables name e) → w.errors.get? name = none ∧
        (name ∈ v.registry.namesIn context → w.registry.descriptor? name = none) ∧
        (name ∉ v.registry.namesIn context → w.registry.descriptor? name = v.registry.descriptor? name ∧
          ∀ c, name ∈ w.registry.namesIn c ↔ name ∈ v.registry.namesIn c)) := by
  intro w
  have hunnamed : (∀ e ∈ entries, ¬ Entry.Enables name e) → w.facet name = v.clear.facet name := by
    intro hnone
    rw [facet_load hload, View.facet_foldl_other, facet_view]
    exact fun e he hname => hnone e he ((name?_eq_some_iff hcheck he name).1 hname)
  refine ⟨⟨fun ⟨item, hitem⟩ => ?_, fun hsome => ?_⟩,
    fun before fields after hentries henables hlast => holds_of_last hcheck hload hentries henables hlast, fun hnone => ?_⟩
  · by_contra hnone
    have h := hunnamed fun e he henables => hnone ⟨e, he, henables⟩
    rw [facet_clear] at h
    exact absurd (hitem.symm.trans (congrArg Facet.item h)) (by simp)
  · obtain ⟨before, e, after, hentries, henables, hlast⟩ := exists_last hsome
    obtain ⟨fields, rfl, _⟩ := id henables
    obtain ⟨item, _, _, _, hitem, _⟩ := holds_of_last hcheck hload hentries henables hlast
    exact ⟨item, hitem⟩
  · have h := hunnamed hnone
    rw [facet_clear] at h
    have hdescriptor : w.registry.descriptor? name =
        if name ∈ v.registry.namesIn context then none else v.registry.descriptor? name := congrArg Facet.descriptor h
    refine ⟨congrArg Facet.rejection h, fun hin => ?_, fun hout => ⟨?_, fun c => ?_⟩⟩
    · rw [hdescriptor, if_pos hin]
    · rw [hdescriptor, if_neg hout]
    · have hc : name ∈ w.registry.namesIn c ↔ c ≠ context ∧ name ∈ v.registry.namesIn c :=
        Set.ext_iff.1 (congrArg Facet.contexts h) c
      rw [hc]
      exact and_iff_right_of_imp fun hin hcontext => hout (hcontext ▸ hin)

/-- A door and a fan are replaced by a fan and an oven, each of which has two entries, and a lamp, whose entry is disabled,
is under another context.  The second entry of the fan is rejected, the one of the oven is not. -/
theorem load_generation_house :
    let entry (name rules : String) (isEnabled : Bool) : Setting := .map [
      (.text (.of "name"), .text (.of name)), (.text (.of "type"), .text (.of "Switch")),
      (.text (.of "http"), .text (.of rules)), (.text (.of "enabled"), .bool isEnabled)]
    let good := ">[ON:GET:http://x/on]"
    let before := (({} : Inventory).load (.list [entry "Door" good true, entry "Fan" good true])).2
    let v := (before.register (.of "hall") ⟨.switch, .of "Lamp", .of "Lamp"⟩ (some (.of good))).2
    let entries := [entry "Fan" good true, entry "Oven" "-" true, entry "Fan" "-" true, entry "Oven" good true,
      entry "Lamp" "-" false]
    let w := (v.load (.list entries)).2
    schema.check (.list entries) = .ok (.list entries) ∧ (v.load (.list entries)).1 = .ok () ∧
      (∃ fan, w.items.get? (.of "Fan") = some fan ∧ w.Holds fan (.of "-")) ∧
      (∃ oven, w.items.get? (.of "Oven") = some oven ∧ w.Holds oven (.of good)) ∧
      v.registry.binds (.of "Door") = true ∧ w.registry.descriptor? (.of "Door") = none ∧
      v.registry.binds (.of "Lamp") = true ∧
      w.registry.descriptor? (.of "Lamp") = v.registry.descriptor? (.of "Lamp") ∧
      .of "Lamp" ∈ w.registry.namesIn (.of "hall") := by
  intro entry good before v entries w
  have hcheck : schema.check (.list entries) = .ok (.list entries) := rfl
  have hload : (v.load (.list entries)).1 = .ok () := by decide +kernel
  have hnone : ∀ name before after, entries = before ++ after → (∀ e ∈ after, Entry.name? e ≠ some name) →
      ∀ e ∈ after, ¬ Entry.Enables name e := fun name before after hentries h e he henables =>
    h e he ((name?_eq_some_iff hcheck (by simp [hentries, he]) name).2 henables)
  obtain ⟨_, hfan, _⟩ := load_generation hcheck hload (.of "Fan")
  obtain ⟨_, hoven, _⟩ := load_generation hcheck hload (.of "Oven")
  obtain ⟨_, _, hdoor⟩ := load_generation hcheck hload (.of "Door")
  obtain ⟨_, _, hlamp⟩ := load_generation hcheck hload (.of "Lamp")
  obtain ⟨fan, _, _, hdescribes, hitem, hfan⟩ := hfan [entry "Fan" good true, entry "Oven" "-" true] _
    [entry "Oven" good true, entry "Lamp" "-" false] rfl ⟨_, rfl, rfl, rfl⟩
    (hnone _ (entries.take 3) _ rfl (by decide +kernel))
  cases (Option.some.inj hdescribes.rules : Setting.text (.of "-") = .text _)
  obtain ⟨oven, _, _, hdescribes', hitem', hoven⟩ := hoven
    [entry "Fan" good true, entry "Oven" "-" true, entry "Fan" "-" true] _ [entry "Lamp" "-" false] rfl ⟨_, rfl, rfl, rfl⟩
    (hnone _ (entries.take 4) _ rfl (by decide +kernel))
  cases (Option.some.inj hdescribes'.rules : Setting.text (.of good) = .text _)
  obtain ⟨_, hdoor, _⟩ := hdoor (hnone _ [] entries rfl (by decide +kernel))
  obtain ⟨_, _, hlamp⟩ := hlamp (hnone _ [] entries rfl (by decide +kernel))
  obtain ⟨hkept, hcontexts⟩ := hlamp (by decide +kernel)
  exact ⟨hcheck, hload, ⟨fan, hitem, hfan⟩, ⟨oven, hitem', hoven⟩, by decide +kernel, hdoor (by decide +kernel),
    by decide +kernel, hkept, (hcontexts _).2 (by decide +kernel)⟩

end Inventory

end RequestRules
