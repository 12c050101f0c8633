import RequestRules.Proofs.Hub
import RequestRules.Proofs.Registry.Processing

/-!
# Runs of a hub

`Hub.run` does any number of changes to a hub, one after the other: starting it, reloading the file, loading entries,
registering a single item, and dropping items or contexts.  Any of them may fail, and leaves behind what it leaves behind.

No item is both bound and rejected in an inventory that is `Inventory.Apart`.  Registering keeps an inventory so because
the rejection that was held goes before the rules are looked at, and the item goes when they are rejected; so no run of a
hub leads to an item that is both (`Hub.apart_run`).
-/

namespace RequestRules

/-! ## Bound and rejected -/

namespace Registry

variable {r : Registry} {name : Text}

theorem binds_register (r : Registry) (context n : Text) (d : Descriptor) :
    (r.register context n d).binds name = true ↔ name = n ∨ r.binds name = true := Table.has_put r.descriptors n name d

theorem binds_remove (r : Registry) (n : Text) : (r.remove n).binds name = true ↔ ¬ name = n ∧ r.binds name = true :=
  Table.has_erase r.descriptors n name

theorem binds_of_removeContext {context : Text} (h : (r.removeContext context).binds name = true) :
    r.binds name = true := by
  have hd := descriptor?_removeContext r context name
  have hbound : ((r.removeContext context).descriptor? name).isSome = true := h
  rw [hd] at hbound
  split_ifs at hbound
  · exact absurd hbound (by simp)
  · exact hbound

end Registry

namespace Inventory

/-- No item is bound while a rejection is held for it. -/
def Apart (v : Inventory) : Prop := ∀ name, ¬ (v.errors.has name = true ∧ v.registry.binds name = true)

variable {v w : Inventory}

theorem apart_of_errors (h : v.errors = []) : v.Apart := by
  rintro name ⟨herror, _⟩
  rw [h] at herror
  exact absurd herror (by simp [Table.has])

/-- Fewer rejections and fewer bound items stay apart. -/
theorem Apart.mono (h : v.Apart) (he : ∀ name, w.errors.has name = true → v.errors.has name = true)
    (hb : ∀ name, w.registry.binds name = true → v.registry.binds name = true) : w.Apart :=
  fun name hw => h name ⟨he name hw.1, hb name hw.2⟩

theorem Apart.register (h : v.Apart) (context : Text) (item : Item) (rules : Option Text) :
    (v.register context item rules).2.Apart := by
  have herase : ∀ name, (v.errors.erase item.name).has name = true → v.errors.has name = true :=
    fun name hn => ((Table.has_erase ..).1 hn).2
  rcases register_cases v context item rules with
    ⟨_, hr⟩ | ⟨t, d, _, _, hr⟩ | ⟨t, r, _, _, hr⟩ | ⟨t, e, _, _, _, hr⟩ <;> rw [hr]
  · exact h.mono herase fun _ hb => hb
  · -- the item is bound now, but nothing is held for it
    rintro name ⟨herror, hbound⟩
    obtain ⟨hne, herror⟩ := (Table.has_erase ..).1 herror
    exact h name ⟨herror, ((Registry.binds_register ..).1 hbound).resolve_left hne⟩
  · -- a rejection is held for the item now, but it is not bound
    rintro name ⟨herror, hbound⟩
    obtain ⟨hne, hbound⟩ := (Registry.binds_remove ..).1 hbound
    exact h name ⟨herase name (((Table.has_put ..).1 herror).resolve_left hne), hbound⟩
  · exact h.mono herase fun _ hb => hb

/-- Rules that are rejected leave the item with a rejection, unbound, and under no context. -/
theorem rejected_register {context : Text} {item : Item} {rules : Option Text}
    (h : (v.register context item rules).1 = .ok false) :
    (v.register context item rules).2.errors.has item.name = true ∧
      (v.register context item rules).2.registry.binds item.name = false ∧
      ∀ c, item.name ∉ (v.register context item rules).2.registry.namesIn c := by
  rcases register_cases v context item rules with
    ⟨_, hr⟩ | ⟨t, d, _, _, hr⟩ | ⟨t, r, _, _, hr⟩ | ⟨t, e, _, _, _, hr⟩ <;> rw [hr] at h ⊢
  · exact absurd h (by simp)
  · exact absurd h (by simp)
  · refine ⟨(Table.has_put ..).2 (.inl rfl), ?_, fun c hc => ?_⟩
    · exact Bool.eq_false_iff.2 fun hbound => ((Registry.binds_remove ..).1 hbound).1 rfl
    · exact (((v.registry.loses_remove item.name).mem_namesIn c item.name).1 hc).2 rfl
  · exact absurd h (by simp)

theorem Apart.add (h : v.Apart) (e : Setting) : (v.add e).2.Apart := by
  rcases add_cases v e with ⟨x, _, ha⟩ | ⟨_, ha⟩ | ⟨i, x, errors, _, herrors, ha⟩ | ⟨i, rs, w, _, rfl, ha⟩ <;> rw [ha]
  · exact h
  · exact h
  · refine h.mono (fun name hn => ?_) fun _ hb => hb
    rcases herrors with rfl | rfl
    · exact hn
    · exact ((Table.has_erase ..).1 hn).2
  · have hput : ({ v with items := v.items.put i.name i } : Inventory).Apart := h
    exact hput.register context i rs

theorem Apart.addAll (h : v.Apart) (es : List Setting) : (v.addAll es).2.Apart := by
  induction es generalizing v with
  | nil => exact h
  | cons e es ih =>
    have hadd := h.add e
    rw [addAll_cons]
    rcases ha : v.add e with ⟨_ | _, w⟩ <;> rw [ha] at hadd
    · exact hadd
    · exact ih hadd

/-- Loading leaves an inventory apart, whatever it was before: no rejection is held when it begins. -/
theorem apart_load (v : Inventory) (s : Setting) : (v.load s).2.Apart := by
  have hclear : v.clear.Apart := apart_of_errors rfl
  unfold load
  split
  · exact hclear.addAll _
  · exact hclear

end Inventory

/-! ## Changes of a hub -/

namespace Hub

/-- A change of a hub. -/
inductive Step
  | start
  /-- the file has this content, or is not read -/
  | reload (content : Except ConfigurationError Setting)
  | load (entries : Setting)
  | register (context : Text) (item : Item) (rules : Option Text)
  | remove (name : Text)
  | removeContext (context : Text)

def step (h : Hub) : Step → Hub
  | .start => h.start.2
  | .reload content => (h.reload content).2
  | .load entries => (h.load entries).2
  | .register context item rules => { h with inventory := (h.inventory.register context item rules).2 }
  | .remove name => { h with inventory := { h.inventory with registry := h.inventory.registry.remove name } }
  | .removeContext context =>
    { h with inventory := { h.inventory with registry := h.inventory.registry.removeContext context } }

def run (h : Hub) (ss : List Step) : Hub := ss.foldl step h

variable {h : Hub}

theorem apart_start (ha : h.inventory.Apart) : h.start.2.inventory.Apart := by
  unfold start
  rcases hr : h.register with ⟨_ | entries, h'⟩
  · -- the domain is registered at most
    have hsame : h.register.2.inventory = h.inventory := rfl
    rw [hr] at hsame
    show h'.inventory.Apart
    rw [hsame]
    exact ha
  · exact Inventory.apart_load h'.inventory entries

theorem apart_step (ha : h.inventory.Apart) (s : Step) : (h.step s).inventory.Apart := by
  cases s with
  | start => exact apart_start ha
  | reload content =>
    have htell : ∀ x (v : Inventory), v.Apart → (tell x v).2.Apart := fun x v _ => Inventory.apart_load v x.setting
    exact Configuration.reload_invariant htell ha h.configuration HubError.configuration none content
  | load entries => exact Inventory.apart_load h.inventory entries
  | register context item rules => exact ha.register context item rules
  | remove name => exact ha.mono (fun _ he => he) fun _ hb => ((Registry.binds_remove ..).1 hb).2
  | removeContext context => exact ha.mono (fun _ he => he) fun _ hb => Registry.binds_of_removeContext hb

theorem apart_run_of_apart (ha : h.inventory.Apart) (ss : List Step) : (h.run ss).inventory.Apart := by
  induction ss generalizing h with
  | nil => exact ha
  | cons s ss ih => exact ih (apart_step ha s)

/-- **No item is both bound and rejected**, whatever has been done to a hub.  Rules that are rejected then leave their item
with a rejection, unbound, and under no context. -/
theorem apart_run (content : Setting) (ss : List Step) :
    let v := ((ofContent content).run ss).inventory
    (∀ name, ¬ (v.errors.has name = true ∧ v.registry.binds name = true)) ∧
      ∀ context item rules, (v.register context item rules).1 = .ok false →
        let w := (v.register context item rules).2
        w.errors.has item.name = true ∧ w.registry.binds item.name = false ∧ ∀ c, item.name ∉ w.registry.namesIn c := by
  intro v
  have hempty : (ofContent content).inventory.Apart := Inventory.apart_of_errors rfl
  exact ⟨apart_run_of_apart hempty ss, fun context item rules hrejected => Inventory.rejected_register hrejected⟩

/-- A lamp with faulty rules in the file that is registered with good ones under two contexts, while reloads and a load
fail, and then with faulty ones again. -/
theorem apart_run_lamp :
    let lamp : Item := ⟨.switch, .of "Lamp", .of "Lamp"⟩
    let good := some (Text.of ">[ON:GET:http://x/on]")
    let v := ((ofContent (ofItem "Lamp" (.bool true))).run [.start, .register (.of "b") lamp good, .reload (.ok .null),
      .start, .load .null, .register (.of "c") lamp good, .remove (.of "Fan")]).inventory
    v.registry.binds lamp.name = true ∧ (v.register (.of "d") lamp (some (.of "-"))).1 = .ok false ∧
      v.errors.has lamp.name = false ∧
      ∀ c, lamp.name ∉ (v.register (.of "d") lamp (some (.of "-"))).2.registry.namesIn c := by
  intro lamp good v
  obtain ⟨hapart, hrejected⟩ := apart_run (ofItem "Lamp" (.bool true)) [.start, .register (.of "b") lamp good,
    .reload (.ok .null), .start, .load .null, .register (.of "c") lamp good, .remove (.of "Fan")]
  have hbound : v.registry.binds lamp.name = true := by decide +kernel
  have hfalse : (v.register (.of "d") lamp (some (.of "-"))).1 = .ok false := by decide +kernel
  refine ⟨hbound, hfalse, ?_, (hrejected (.of "d") lamp (some (.of "-")) hfalse).2.2⟩
  exact Bool.eq_false_iff.2 fun herror => hapart lamp.name ⟨herror, hbound⟩

end Hub

end RequestRules
