import RequestRules.Inventory
import RequestRules.Proofs.Schema

/-!
# Entries that the schema lets through

An entry is `Accepted` if it has a name, a type and rules, and all its values are of the sorts that their keys ask for.

* `Inventory.check_eq_ok` — the schema lets through exactly the lists of accepted entries, and fills in truth values only;
* `Inventory.valid_of_accepted` — an accepted entry is `Valid`, and so it is read without an error (`Entry.Valid.read_eq`).
-/

namespace RequestRules

/-! ## Valid entries -/

namespace Entry

/-- The fields of an entry as the schema wants them. -/
structure Valid (fields : List (Setting × Setting)) (type : ItemType) (name rules : Text) (isEnabled : Bool) : Prop where
  type : Setting.field? "type" fields = some (.text type.name)
  name : Setting.field? "name" fields = some (.text name)
  label : ∀ v, Setting.field? "label" fields = some v → ∃ t, v = .text t
  rules : Setting.field? "http" fields = some (.text rules)
  enabled : Setting.field? "enabled" fields = some (.bool isEnabled)

def itemOf (fields : List (Setting × Setting)) (type : ItemType) (name : Text) : Item :=
  ⟨type, name, Item.labelOr name (label fields)⟩

variable {fields : List (Setting × Setting)} {type : ItemType} {name rules : Text} {isEnabled : Bool}

theorem Valid.read_eq (h : Valid fields type name rules isEnabled) : Entry.read (.map fields) =
    .ok (if isEnabled then .enabled (itemOf fields type name) (.ok (some rules)) else .disabled) := by
  have hcreate : Item.create? type.name [] none = some ⟨type, [], []⟩ := by cases type <;> rfl
  have hitem : Entry.item fields = .ok (itemOf fields type name) := by
    unfold Entry.item itemOf
    simp only [h.type, h.name, word, hcreate, bind, Except.bind, pure, Except.pure]
  have hrules : Entry.rules fields = .ok (some rules) := by
    unfold Entry.rules
    rw [h.rules]
  unfold Entry.read
  simp only [h.enabled, hitem, hrules, h.name]
  cases isEnabled <;> rfl

/-- The value is of the sort that its key asks for.  Other keys than these ask for nothing. -/
structure Fits (k v : Setting) : Prop where
  text : ∀ s ∈ ["name", "label", "http"], k = .text (.of s) → ∃ t, v = .text t
  type : k = .text (.of "type") → ∃ i : ItemType, v = .text i.name
  enabled : k = .text (.of "enabled") → ∃ b, v = .bool b

/-- The entry has a name, a type and rules, and all its values are of the sorts that their keys ask for. -/
structure Accepted (es : List (Setting × Setting)) : Prop where
  there : ∀ s ∈ ["name", "type", "http"], ∃ v, (.text (.of s), v) ∈ es
  fits : ∀ e ∈ es, Fits e.1 e.2

def completed (es : List (Setting × Setting)) : List (Setting × Setting) :=
  if (Setting.field? "enabled" es).isSome then es else es ++ [(.text (.of "enabled"), .bool true)]

/-- Reading looks at five fields only. -/
theorem read_congr {es fs : List (Setting × Setting)}
    (h : ∀ s ∈ ["type", "name", "label", "http", "enabled"], Setting.field? s es = Setting.field? s fs) :
    Entry.read (.map es) = Entry.read (.map fs) := by
  simp only [List.mem_cons, List.not_mem_nil, or_false, forall_eq_or_imp, forall_eq] at h
  obtain ⟨htype, hname, hlabel, hhttp, henabled⟩ := h
  simp only [Entry.read, Entry.item, Entry.label, Entry.rules, htype, hname, hlabel, hhttp, henabled]

end Entry

namespace Inventory

def entryFields : List (Rule × Schema) := [
  (⟨.of "name", true, none⟩, .text),
  (⟨.of "type", true, none⟩, .choice ItemType.sortedNames),
  (⟨.of "label", false, none⟩, .text),
  (⟨.of "http", true, none⟩, .text),
  (⟨.of "enabled", true, some (.bool true)⟩, .bool)]

theorem schema_eq : schema = .list (.map entryFields true) := rfl

def filled (es : List (Setting × Setting)) : List (Setting × Setting) := Schema.fill entryFields es

theorem filled_eq (es : List (Setting × Setting)) : filled es =
    es ++ (Setting.field? "enabled" es).elim [(.text (.of "enabled"), .bool true)] fun _ => [] := by
  unfold filled Schema.fill Setting.field?
  simp only [entryFields, List.filterMap_cons, List.filterMap_nil]
  cases Setting.find? (.text (.of "enabled")) es <;> rfl

theorem filled_eq_completed (es : List (Setting × Setting)) : filled es = Entry.completed es := by
  rw [filled_eq, Entry.completed]
  cases Setting.field? "enabled" es with
  | none => rfl
  | some v => exact List.append_nil es

theorem field?_filled {s : String} (hs : s ≠ "enabled") (es : List (Setting × Setting)) :
    Setting.field? s (filled es) = Setting.field? s es := by
  have hne : ¬ Setting.sameScalar (.text (.of s)) (.text (.of "enabled")) = true := by
    rw [Setting.sameScalar_text]
    intro h
    exact hs (Text.of_injective (Setting.text.inj h)).symm
  unfold Setting.field?
  rw [filled_eq, Setting.find?_append]
  cases Setting.field? "enabled" es with
  | none => simp [hne, Setting.find?]
  | some v => simp [Setting.find?]

theorem field?_enabled_filled (es : List (Setting × Setting)) :
    Setting.field? "enabled" (filled es) = some ((Setting.field? "enabled" es).getD (.bool true)) := by
  have hself : Setting.sameScalar (.text (.of "enabled")) (.text (.of "enabled")) = true := Setting.sameScalar_text.2 rfl
  rw [Setting.field?, filled_eq, Setting.find?_append]
  show ((Setting.field? "enabled" es).or _) = _
  cases Setting.field? "enabled" es with
  | none => simp [Setting.find?_cons, hself]
  | some v => rfl

theorem mem_filled {es : List (Setting × Setting)} {e : Setting × Setting} : e ∈ filled es ↔
    e ∈ es ∨ Setting.field? "enabled" es = none ∧ e = (.text (.of "enabled"), .bool true) := by
  rw [filled_eq, List.mem_append]
  cases Setting.field? "enabled" es <;> simp

/-! ## What the schema lets through -/

theorem exists_sortedNames {v : Setting} :
    (∃ t ∈ ItemType.sortedNames, v = .text t) ↔ ∃ i : ItemType, v = .text i.name := by
  constructor
  · rintro ⟨t, ht, rfl⟩
    obtain ⟨i, _, rfl⟩ := List.mem_map.1 ht
    exact ⟨i, rfl⟩
  · rintro ⟨i, rfl⟩
    exact ⟨i.name, by cases i <;> decide, rfl⟩

theorem acceptsValue_entry {k v w : Setting} :
    Schema.AcceptsValue entryFields true k v w ↔ Entry.Fits k v ∧ v = w := by
  have hdistinct : entryFields.Pairwise fun f g => f.1.name ≠ g.1.name := by simp [entryFields, Text.of]
  rw [Schema.acceptsValue_iff hdistinct]
  constructor
  · rintro ⟨hfields, hother⟩
    -- none of the fields is a container, so that the value stays as it is
    have hplain : ∀ f ∈ entryFields, f.2.Accepts v w → w = v := by
      simp only [entryFields, List.forall_mem_cons, Schema.Accepts]
      exact ⟨And.left, And.left, And.left, And.left, And.left, by simp⟩
    have hsame : w = v := by
      by_cases h : ∃ f ∈ entryFields, k = .text f.1.name
      · obtain ⟨f, hf, hk⟩ := h
        exact hplain f hf (hfields f hf hk)
      · exact (hother fun f hf hk => h ⟨f, hf, hk⟩).1
    simp only [entryFields, List.forall_mem_cons, Schema.Accepts, exists_sortedNames] at hfields
    obtain ⟨hname, htype, hlabel, hrules, henabled, _⟩ := hfields
    refine ⟨⟨?_, fun h => (htype h).2, fun h => (henabled h).2⟩, hsame.symm⟩
    simp only [List.forall_mem_cons]
    exact ⟨fun h => (hname h).2, fun h => (hlabel h).2, fun h => (hrules h).2, by simp⟩
  · rintro ⟨⟨htext, htype, henabled⟩, hsame⟩
    simp only [List.forall_mem_cons] at htext
    obtain ⟨hname, hlabel, hrules, _⟩ := htext
    refine ⟨?_, fun _ => ⟨hsame.symm, rfl⟩⟩
    simp only [entryFields, List.forall_mem_cons, Schema.Accepts, exists_sortedNames]
    refine ⟨fun h => ⟨hsame.symm, hname h⟩, fun h => ⟨hsame.symm, htype h⟩, fun h => ⟨hsame.symm, hlabel h⟩,
      fun h => ⟨hsame.symm, hrules h⟩, fun h => ⟨hsame.symm, henabled h⟩, by simp⟩

theorem exists_mem_filled {s : String} (hs : s ≠ "enabled") {es : List (Setting × Setting)} :
    (∃ v, (.text (.of s), v) ∈ filled es) ↔ ∃ v, (.text (.of s), v) ∈ es := by
  rw [← Setting.isSome_find?_text, ← Setting.isSome_find?_text]
  exact iff_of_eq (congrArg (fun v : Option Setting => v.isSome = true) (field?_filled hs es))

theorem complete_entry {es : List (Setting × Setting)} : Schema.Complete entryFields (filled es) ↔
    ∀ s ∈ ["name", "type", "http"], ∃ v, (.text (.of s), v) ∈ es := by
  have henabled : ∃ v, (.text (.of "enabled"), v) ∈ filled es :=
    ⟨_, Setting.mem_of_find?_text (field?_enabled_filled es)⟩
  unfold Schema.Complete
  simp only [entryFields, List.forall_mem_cons, Setting.isSome_find?_text, henabled]
  simp [exists_mem_filled]

theorem fits_filled {es : List (Setting × Setting)} :
    (∀ e ∈ filled es, Entry.Fits e.1 e.2) ↔ ∀ e ∈ es, Entry.Fits e.1 e.2 := by
  have hadded : Entry.Fits (.text (.of "enabled")) (.bool true) := by
    refine ⟨?_, by simp [Text.of], fun _ => ⟨true, rfl⟩⟩
    simp [Text.of]
  constructor
  · exact fun h e he => h e (mem_filled.2 (.inl he))
  · intro h e he
    rcases mem_filled.1 he with he | ⟨_, rfl⟩
    · exact h e he
    · exact hadded

/-- **An entry that is let through.** -/
theorem accepts_entry {x y : Setting} : (Schema.map entryFields true).Accepts x y ↔
    ∃ es, x = .map es ∧ y = .map (filled es) ∧ Entry.Accepted es := by
  have hvalue : (fun e f : Setting × Setting => f.1 = e.1 ∧ Schema.AcceptsValue entryFields true e.1 e.2 f.2) =
      fun e f => Entry.Fits e.1 e.2 ∧ e = f := by
    funext e f
    rw [acceptsValue_entry, Prod.ext_iff, eq_comm (a := e.1)]
    exact propext and_left_comm
  unfold Schema.Accepts
  rw [hvalue]
  simp only [List.forall₂_and_left, List.forall₂_eq_eq_eq]
  constructor
  · rintro ⟨es, fs, rfl, rfl, hcomplete, hfits, rfl⟩
    exact ⟨es, rfl, rfl, complete_entry.1 hcomplete, fits_filled.1 hfits⟩
  · rintro ⟨es, rfl, rfl, hthere, hfits⟩
    exact ⟨es, _, rfl, rfl, complete_entry.2 hthere, fits_filled.2 hfits, rfl⟩

/-- **What the schema lets through** is a list of maps, in which only missing truth values are filled in. -/
theorem check_eq_ok {s c : Setting} : schema.check s = .ok c ↔ ∃ ess : List (List (Setting × Setting)),
    s = .list (ess.map .map) ∧ c = .list (ess.map fun es => .map (filled es)) ∧ ∀ es ∈ ess, Entry.Accepted es := by
  rw [Schema.check_eq_ok, schema_eq, Schema.Accepts]
  simp only [accepts_entry]
  constructor
  · rintro ⟨xs, ys, rfl, rfl, hall⟩
    induction hall with
    | nil => exact ⟨[], rfl, rfl, by simp⟩
    | @cons x y xs ys hxy _ ih =>
      obtain ⟨es, rfl, rfl, hes⟩ := hxy
      obtain ⟨ess, hxs, hys, hess⟩ := ih
      cases hxs
      cases hys
      exact ⟨es :: ess, rfl, rfl, List.forall_mem_cons.2 ⟨hes, hess⟩⟩
  · rintro ⟨ess, rfl, rfl, hess⟩
    refine ⟨_, _, rfl, rfl, ?_⟩
    rw [List.forall₂_map_left_iff, List.forall₂_map_right_iff]
    exact List.forall₂_same.2 fun es hes => ⟨es, rfl, rfl, hess es hes⟩

theorem exists_field? {es : List (Setting × Setting)} (h : Entry.Accepted es) {s : String}
    (hs : s ∈ ["name", "type", "http"]) :
    ∃ v, Setting.field? s (filled es) = some v ∧ Entry.Fits (.text (.of s)) v := by
  have hne : s ≠ "enabled" := by
    rintro rfl
    exact absurd hs (by decide)
  obtain ⟨v, hv⟩ := Option.isSome_iff_exists.1 (Setting.isSome_find?_text.2 (h.there s hs))
  exact ⟨v, (field?_filled hne es).trans hv, h.fits _ (Setting.mem_of_find?_text hv)⟩

/-- The fields of an accepted entry are as reading wants them. -/
theorem valid_of_accepted {es : List (Setting × Setting)} (h : Entry.Accepted es) :
    ∃ type name rules isEnabled, Entry.Valid (filled es) type name rules isEnabled := by
  obtain ⟨_, htype, hfits⟩ := exists_field? h (s := "type") (by simp)
  obtain ⟨type, rfl⟩ := hfits.type rfl
  obtain ⟨_, hname, hfits⟩ := exists_field? h (s := "name") (by simp)
  obtain ⟨name, rfl⟩ := hfits.text "name" (by simp) rfl
  obtain ⟨_, hrules, hfits⟩ := exists_field? h (s := "http") (by simp)
  obtain ⟨rules, rfl⟩ := hfits.text "http" (by simp) rfl
  have hfits : ∀ e ∈ filled es, Entry.Fits e.1 e.2 := fits_filled.2 h.fits
  obtain ⟨v, henabled⟩ : ∃ v, Setting.field? "enabled" (filled es) = some v := ⟨_, field?_enabled_filled es⟩
  obtain ⟨isEnabled, rfl⟩ : ∃ b, v = .bool b := (hfits _ (Setting.mem_of_find?_text henabled)).enabled rfl
  refine ⟨type, name, rules, isEnabled, htype, hname, fun v hv => ?_, hrules, henabled⟩
  exact (hfits _ (Setting.mem_of_find?_text hv)).text "label" (by simp) rfl

/-- **What the schema lets through** is a list of maps, in which only missing truth values are filled in, and all entries
are valid. -/
theorem check_ok {s c : Setting} (h : schema.check s = .ok c) :
    ∃ ess : List (List (Setting × Setting)), s = .list (ess.map .map) ∧ c = .list (ess.map fun es => .map (filled es)) ∧
      ∀ es ∈ ess, ∃ type name rules isEnabled, Entry.Valid (filled es) type name rules isEnabled := by
  obtain ⟨ess, hs, hc, hall⟩ := check_eq_ok.1 h
  exact ⟨ess, hs, hc, fun es hes => valid_of_accepted (hall es hes)⟩

theorem valid_of_mem {s : Setting} {entries : List Setting} (h : schema.check s = .ok (.list entries)) {e : Setting}
    (he : e ∈ entries) :
    ∃ fields type name rules isEnabled, e = .map fields ∧ Entry.Valid fields type name rules isEnabled := by
  obtain ⟨ess, _, hlist, hvalid⟩ := check_ok h
  cases hlist
  obtain ⟨es, hes, rfl⟩ := List.mem_map.1 he
  obtain ⟨type, name, rules, isEnabled, hv⟩ := hvalid es hes
  exact ⟨filled es, type, name, rules, isEnabled, rfl, hv⟩

end Inventory

end RequestRules
