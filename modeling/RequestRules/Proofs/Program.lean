import RequestRules.Program
import RequestRules.Proofs.Hub

/-!
# The exit status

The status of a run that ends is read off the rejections that are held then.  An item that is registered again loses its
rejection, so of the entries of an item the last one counts (`Inventory.errors_addAll`): the status tells whether for some
item that one was rejected (`Program.exit_run`), and nothing of what was rejected before it (`Program.exit_run_again`).
-/

namespace RequestRules

namespace Entry

def IsFor (name : Text) (e : Setting) : Prop := ∃ item rules, read e = .ok (.enabled item rules) ∧ item.name = name

def IsRejected (name : Text) (r : Rejection) (e : Setting) : Prop :=
  ∃ item t, read e = .ok (.enabled item (.ok (some t))) ∧ item.name = name ∧
    Descriptor.parse item t = .error (.rejected r)

variable {e : Setting} {item : Item}

theorem isFor_iff {rules : Except EntryError (Option Text)} (h : read e = .ok (.enabled item rules)) (name : Text) :
    IsFor name e ↔ name = item.name := by
  constructor
  · rintro ⟨item', rules', h', rfl⟩
    cases h.symm.trans h'
    rfl
  · rintro rfl
    exact ⟨item, rules, h, rfl⟩

theorem isRejected_iff {t : Text} (h : read e = .ok (.enabled item (.ok (some t)))) (name : Text) (r : Rejection) :
    IsRejected name r e ↔ name = item.name ∧ Descriptor.parse item t = .error (.rejected r) := by
  constructor
  · rintro ⟨item', t', h', rfl, hparse⟩
    cases h.symm.trans h'
    exact ⟨rfl, hparse⟩
  · rintro ⟨rfl, hparse⟩
    exact ⟨item, t, h, rfl, hparse⟩

end Entry

/-! ## Rejections that are held -/

namespace Inventory

variable {v : Inventory} {e : Setting} {name : Text} {r : Rejection}

/-- The rejections after the rules of an item have been read: only that of the item may be another one. -/
theorem errors_register {item : Item} {t : Text} (hok : ∃ b, (v.register context item (some t)).1 = .ok b) :
    (v.register context item (some t)).2.errors.get? name = some r ↔
      (name = item.name ∧ Descriptor.parse item t = .error (.rejected r)) ∨
        (v.errors.get? name = some r ∧ ¬ name = item.name) := by
  obtain ⟨b, hok⟩ := hok
  rcases register_cases v context item (some t) with
    ⟨hnone, _⟩ | ⟨t', d, ht, hp, hr⟩ | ⟨t', x, ht, hp, hr⟩ | ⟨t', x, _, _, _, hr⟩
  · exact absurd hnone (by simp)
  · cases ht
    rw [hr, hp, Table.get?_erase]
    by_cases hname : name = item.name <;> simp [hname]
  · cases ht
    rw [hr, hp, Table.get?_put, Table.get?_erase]
    by_cases hname : name = item.name <;> simp [hname]
  · -- the rules are not read to their end
    rw [hr] at hok
    exact absurd hok (by simp)

/-- **What an entry does to the rejections**: it may add one for its own item, and takes away what was held for it. -/
theorem errors_add (hok : (v.add e).1 = .ok ()) :
    (v.add e).2.errors.get? name = some r ↔
      Entry.IsRejected name r e ∨ (v.errors.get? name = some r ∧ ¬ Entry.IsFor name e) := by
  rcases add_ok hok with ⟨hread, hadd⟩ | ⟨item, rules, w, hread, rfl, hregister, hadd⟩ <;> rw [hadd]
  · have hno : ¬ Entry.IsFor name e := by
      rintro ⟨item, rules, h, _⟩
      exact absurd (hread.symm.trans h) (by simp)
    have hnot : ¬ Entry.IsRejected name r e := by
      rintro ⟨item, t, h, _⟩
      exact absurd (hread.symm.trans h) (by simp)
    simp [hno, hnot]
  · rw [Entry.isFor_iff hread]
    cases rules with
    | none =>
      have hnot : ¬ Entry.IsRejected name r e := by
        rintro ⟨item, t, h, _⟩
        exact absurd (hread.symm.trans h) (by simp)
      show (v.errors.erase item.name).get? name = some r ↔ _
      rw [Table.get?_erase]
      simp only [hnot, false_or]
      by_cases hname : name = item.name <;> simp [hname]
    | some t => rw [Entry.isRejected_iff hread, errors_register hregister]

theorem addAll_snoc (v : Inventory) (es : List Setting) (e : Setting) :
    v.addAll (es ++ [e]) = match v.addAll es with
      | (.ok (), w) => w.add e
      | (.error x, w) => (.error x, w) := by
  induction es generalizing v with
  | nil =>
    rw [List.nil_append, addAll_cons]
    show _ = v.add e
    rcases v.add e with ⟨_ | _, w⟩ <;> rfl
  | cons f es ih =>
    rw [List.cons_append, addAll_cons, addAll_cons]
    rcases v.add f with ⟨_ | _, w⟩
    · rfl
    · exact ih w

/-- The last enabled entry for an item with the name is rejected. -/
def LastRejected (es : List Setting) (name : Text) (r : Rejection) : Prop :=
  ∃ before e after, es = before ++ e :: after ∧ Entry.IsRejected name r e ∧ ∀ f ∈ after, ¬ Entry.IsFor name f

/-- **Of the entries for an item the last counts.** -/
theorem errors_addAll {es : List Setting} (hok : (({} : Inventory).addAll es).1 = .ok ()) :
    (({} : Inventory).addAll es).2.errors.get? name = some r ↔ LastRejected es name r := by
  induction es using List.reverseRecOn with
  | nil =>
    have hnone : (({} : Inventory).addAll []).2.errors.get? name = none := rfl
    rw [hnone]
    refine iff_of_false (by simp) ?_
    rintro ⟨before, e, after, h, _⟩
    exact absurd h (by simp)
  | append_singleton es e ih =>
    rw [addAll_snoc] at hok ⊢
    rcases hr : ({} : Inventory).addAll es with ⟨x | _, w⟩ <;> rw [hr] at hok ih
    · exact absurd hok (by simp)
    · exact ((errors_add hok).trans (or_congr_right (and_congr_left' (ih rfl)))).trans exists_last_snoc.symm

/-- Nothing is held exactly if for no name the last enabled entry is rejected. -/
theorem isEmpty_errors_addAll {es : List Setting} (hok : (({} : Inventory).addAll es).1 = .ok ()) :
    (({} : Inventory).addAll es).2.errors.isEmpty = true ↔ ¬ ∃ name r, LastRejected es name r := by
  rw [Table.isEmpty_iff]
  constructor
  · rintro h ⟨name, r, hlast⟩
    rw [← errors_addAll hok, h name] at hlast
    exact absurd hlast (by simp)
  · intro h name
    rw [Option.eq_none_iff_forall_not_mem]
    exact fun r hr => h ⟨name, r, (errors_addAll hok).1 hr⟩

end Inventory

/-! ## Runs -/

def Ending.status? : Ending → Option Nat
  | exit status => some status
  | _ => none

theorem Ending.status?_eq_some {e : Ending} {status : Nat} : e.status? = some status ↔ e = .exit status := by
  cases e <;> simp [status?]

namespace Program

variable {fields : List (Setting × Setting)} {entries : List Setting} {names : Option (List Argument)} {status : Nat}

theorem run_map
    (hcheck : Inventory.schema.check ((Setting.find? Hub.itemsKey fields).getD (.list [])) = .ok (.list entries))
    (names : Option (List Argument)) : run (.map fields) names = match ({} : Inventory).addAll entries with
      | (.error e, _) => { ending := .failure (.entry e), log := loadLog (.list entries) }
      | (.ok (), v) =>
        let log := loadLog (.list entries) ++ [counted v, complete]
        match selected? v.registry names with
        | none => { ending := .noText, log }
        | some names =>
          { ending := .exit (if v.errors.isEmpty then 0 else 1)
            printed := render v.registry names
            log := log ++ (names.filter fun name => !v.registry.binds name).map unbound } := by
  have hload : ∀ c, (Hub.load ⟨c, {}⟩ (.list entries)) = ((({} : Inventory).addAll entries).1.mapError .entry,
      ⟨c, (({} : Inventory).addAll entries).2⟩) := fun _ => rfl
  unfold run
  rw [Hub.register_map, hcheck]
  simp only [Except.mapError, hload]
  rcases ({} : Inventory).addAll entries with ⟨x | _, v⟩ <;> rfl

/-- A run that ends has loaded all entries, and its status says whether rejections are held. -/
theorem status_run
    (hcheck : Inventory.schema.check ((Setting.find? Hub.itemsKey fields).getD (.list [])) = .ok (.list entries))
    (hexit : (run (.map fields) names).ending = .exit status) :
    (({} : Inventory).addAll entries).1 = .ok () ∧
      status = if (({} : Inventory).addAll entries).2.errors.isEmpty then 0 else 1 := by
  rw [run_map hcheck] at hexit
  rcases hadd : ({} : Inventory).addAll entries with ⟨x | _, v⟩ <;> rw [hadd] at hexit
  · exact absurd hexit (by simp)
  · refine ⟨rfl, ?_⟩
    simp only at hexit
    cases hselect : selected? v.registry names with
    | none =>
      rw [hselect] at hexit
      exact absurd hexit (by simp)
    | some names =>
      rw [hselect] at hexit
      exact (Ending.exit.inj hexit).symm

/-- **The exit status tells of rejected items.**  A run that ends has status 1 if for some item the last enabled entry is
rejected, and status 0 if not, whatever names are asked for. -/
theorem exit_run
    (hcheck : Inventory.schema.check ((Setting.find? Hub.itemsKey fields).getD (.list [])) = .ok (.list entries))
    (hexit : (run (.map fields) names).ending = .exit status) :
    ((∃ name r, Inventory.LastRejected entries name r) → status = 1) ∧
      ((¬ ∃ name r, Inventory.LastRejected entries name r) → status = 0) := by
  obtain ⟨hok, hstatus⟩ := status_run hcheck hexit
  have hempty := Inventory.isEmpty_errors_addAll hok
  constructor
  · intro hlast
    rw [hstatus, if_neg fun h => hempty.1 h hlast]
  · intro hnone
    rw [hstatus, if_pos (hempty.2 hnone)]

/-- An entry of a switch, which is enabled. -/
def switchEntry (name rules : String) : Setting := .map [(.text (.of "name"), .text (.of name)),
  (.text (.of "type"), .text (.of "Switch")), (.text (.of "http"), .text (.of rules)), (.text (.of "enabled"), .bool true)]

def contentOf (entries : List Setting) : List (Setting × Setting) := [(Hub.itemsKey, .list entries)]

/-- A lamp whose rules are rejected behind a fan with rules that are accepted; nobody asks for the lamp. -/
theorem exit_run_lamp :
    let entries := [switchEntry "Fan" ">[ON:GET:http://x/on]", switchEntry "Lamp" "-"]
    let asked := some [Argument.text (.of "Fan")]
    Inventory.schema.check (.list entries) = .ok (.list entries) ∧
      (run (.map (contentOf entries)) asked).ending = .exit 1 ∧ ∃ name r, Inventory.LastRejected entries name r := by
  intro entries asked
  have hcheck : Inventory.schema.check ((Setting.find? Hub.itemsKey (contentOf entries)).getD (.list [])) =
      .ok (.list entries) := rfl
  have hexit : (run (.map (contentOf entries)) asked).ending = .exit 1 := Ending.status?_eq_some.1 (by decide +kernel)
  refine ⟨hcheck, hexit, ?_⟩
  by_contra hno
  exact absurd ((exit_run hcheck hexit).2 hno) (by decide)

/-- **A rejection may leave no trace**: of two entries for a lamp the first is rejected, but the status is 0. -/
theorem exit_run_again :
    let lamp : Item := ⟨.switch, .of "Lamp", .of "Lamp"⟩
    let entries := [switchEntry "Lamp" "-", switchEntry "Lamp" ">[ON:GET:http://x/on]"]
    Inventory.schema.check (.list entries) = .ok (.list entries) ∧
      Entry.read (switchEntry "Lamp" "-") = .ok (.enabled lamp (.ok (some (.of "-")))) ∧
      (∃ r, Descriptor.parse lamp (.of "-") = .error (.rejected r)) ∧
      (run (.map (contentOf entries)) none).ending = .exit 0 := by
  intro lamp entries
  exact ⟨rfl, rfl, ⟨_, rfl⟩, Ending.status?_eq_some.1 (by decide +kernel)⟩

end Program

end RequestRules
