import RequestRules.Hub
import RequestRules.Proofs.Configuration
import RequestRules.Proofs.Inventory

/-!
# Reloading and starting again

A hub is settled when its inventory is the one that a start with the content it holds would give.  A start settles a hub,
and no reload unsettles it (`Hub.settled_after`), whatever the file holds and whether the reload fails or not.

So what a reload leaves behind is a question about the content that is held then.  `Hub.reload_outcomes` answers it: the
items are those of a start with the new content, unless the new content has no items, or its items were passed over
because they are the same as invalid ones that are held.
-/

namespace RequestRules

/-! ## Taking over entries -/

namespace Hub

def ownDomains : Table Domain := [(itemsDomain, ⟨some Inventory.schema, true⟩)]

def itemsKey : Setting := .text itemsDomain

variable {c : Configuration} {s : Inventory} {k v : Setting} {es : List (Setting × Setting)}

theorem validate_items (hd : c.domains = ownDomains) (v : Setting) :
    c.validate itemsDomain v = (Inventory.schema.check v).mapError .invalid := by
  unfold Configuration.validate
  rw [hd]
  rfl

theorem take_other (hd : c.domains = ownDomains) (hk : k ≠ itemsKey) (es : List (Setting × Setting)) (v : Setting) :
    Configuration.take es c k v = .ok none ∨ ∃ e, Configuration.take es c k v = .error e := by
  have hdomain : c.domain? k = none := by
    cases k with
    | text name =>
      have hname : ¬ name = itemsDomain := fun h => hk (by rw [h]; rfl)
      show (c.domains.get? name).map _ = none
      rw [hd, ownDomains, Table.get?_cons, if_neg hname]
      rfl
    | _ => rfl
  unfold Configuration.take
  rw [hdomain]
  rcases v.same? ((Setting.find? k es).getD .null) with _ | _ | _
  · exact .inr ⟨_, rfl⟩
  · exact .inl rfl
  · exact .inl rfl

theorem take_items (hd : c.domains = ownDomains) (es : List (Setting × Setting)) (v : Setting) :
    Configuration.take es c itemsKey v = match v.same? ((Setting.find? itemsKey es).getD .null) with
      | none => .error (.fault .endless)
      | some true => .ok none
      | some false => match Inventory.schema.check v with
        | .ok w => .ok (some (⟨itemsDomain, w, true⟩, { c with content := .map (Setting.put es itemsKey v) }))
        | .error _ => .ok none := by
  have hdomain : c.domain? itemsKey = some (itemsDomain, ⟨some Inventory.schema, true⟩) := by
    show (c.domains.get? itemsDomain).map _ = _
    rw [hd, ownDomains, Table.get?_cons, if_pos rfl]
    rfl
  unfold Configuration.take
  rw [hdomain]
  rcases v.same? ((Setting.find? itemsKey es).getD .null) with _ | _ | _
  · rfl
  · simp only [Option.bind_eq_bind, Option.bind_some, validate_items hd]
    cases Inventory.schema.check v <;> rfl
  · rfl

/-- The entries of other domains change nothing. -/
theorem takeAll_others (hd : c.domains = ownDomains) {new : List (Setting × Setting)} (hk : ∀ e ∈ new, e.1 ≠ itemsKey) :
    ∃ r, c.takeAll tell .configuration s new = (r, c, s) := by
  induction new with
  | nil => exact ⟨.ok (), rfl⟩
  | cons e new ih =>
    obtain ⟨k, v⟩ := e
    rw [Configuration.takeAll]
    split
    · next es _ =>
      rcases take_other hd (hk (k, v) (by simp)) es v with h | ⟨x, h⟩ <;> rw [h]
      · exact ih fun e he => hk e (List.mem_cons_of_mem _ he)
      · exact ⟨_, rfl⟩
    · exact ⟨_, rfl⟩

theorem takeAll_items (hd : c.domains = ownDomains) (hc : c.content = .map es) (s : Inventory) (v : Setting) :
    c.takeAll tell .configuration s [(itemsKey, v)] = match v.same? ((Setting.find? itemsKey es).getD .null) with
      | none => (.error (.configuration (.fault .endless)), c, s)
      | some true => (.ok (), c, s)
      | some false => match Inventory.schema.check v with
        | .ok w => ((s.load w).1.mapError .entry, { c with content := .map (Setting.put es itemsKey v) }, (s.load w).2)
        | .error _ => (.ok (), c, s) := by
  rw [Configuration.takeAll]
  split
  · next es' hes =>
    cases hc.symm.trans hes
    rw [take_items hd]
    rcases v.same? ((Setting.find? itemsKey es).getD .null) with _ | _ | _
    · rfl
    · cases Inventory.schema.check v with
      | error cs => rfl
      | ok w =>
        simp only [tell]
        rcases s.load w with ⟨_ | _, i⟩ <;> rfl
    · rfl
  · next hno => exact absurd hc (hno es)

/-! ## Settled hubs -/

/-- The inventory that a start with a content gives, whether it fails or not. -/
def loaded (content : Setting) : Inventory := (ofContent content).start.2.inventory

def items? : Setting → Option Setting
  | .map es => Setting.find? itemsKey es
  | _ => none

theorem register_map (es : List (Setting × Setting)) : (ofContent (.map es)).register =
    ((Inventory.schema.check ((Setting.find? itemsKey es).getD (.list []))).mapError .invalid,
      ⟨⟨.map es, ownDomains⟩, {}⟩) := rfl

theorem start_map (es : List (Setting × Setting)) : (ofContent (.map es)).start =
    match Inventory.schema.check ((Setting.find? itemsKey es).getD (.list [])) with
      | .ok w => ((({} : Inventory).load w).1.mapError .entry, ⟨⟨.map es, ownDomains⟩, (({} : Inventory).load w).2⟩)
      | .error cs => (.error (.configuration (.invalid cs)), ⟨⟨.map es, ownDomains⟩, {}⟩) := by
  unfold start
  rw [register_map]
  cases Inventory.schema.check ((Setting.find? itemsKey es).getD (.list [])) <;> rfl

theorem loaded_map (es : List (Setting × Setting)) : loaded (.map es) =
    match Inventory.schema.check ((Setting.find? itemsKey es).getD (.list [])) with
      | .ok w => (({} : Inventory).load w).2
      | .error _ => {} := by
  unfold loaded
  rw [start_map]
  split <;> rfl

theorem start_other {content : Setting} (h : ∀ es, content ≠ .map es) :
    (ofContent content).start = (.error (.configuration .notMap), ⟨⟨content, ownDomains⟩, {}⟩) := by
  cases content with
  | map es => exact absurd rfl (h es)
  | _ => rfl

/-- The hub has its domain, and its inventory is what a start with its content gives. -/
structure Settled (h : Hub) : Prop where
  domains : h.configuration.domains = ownDomains
  inventory : h.inventory = loaded h.configuration.content

theorem isOnly_loaded (content : Setting) : (loaded content).registry.IsOnly Inventory.context := by
  have hempty : (({} : Inventory).registry).IsOnly Inventory.context := Registry.isOnly_empty _
  by_cases h : ∃ es, content = .map es
  · obtain ⟨es, rfl⟩ := h
    rw [loaded_map]
    split
    · exact Inventory.isOnly_load hempty _
    · exact hempty
  · rw [loaded, start_other fun es hes => h ⟨es, hes⟩]
    exact hempty

theorem configuration_start (content : Setting) : (ofContent content).start.2.configuration = ⟨content, ownDomains⟩ := by
  by_cases h : ∃ es, content = .map es
  · obtain ⟨es, rfl⟩ := h
    rw [start_map]
    split <;> rfl
  · rw [start_other fun es hes => h ⟨es, hes⟩]

theorem settled_start (content : Setting) : (ofContent content).start.2.Settled := by
  constructor
  · rw [configuration_start]
  · rw [configuration_start]
    rfl

/-- One entry leaves the hub settled. -/
theorem settled_takeOne (hd : c.domains = ownDomains) (hs : s = loaded c.content) (e : Setting × Setting)
    {r : Except HubError Unit} {c' : Configuration} {s' : Inventory}
    (h : c.takeAll tell .configuration s [e] = (r, c', s')) : c'.domains = ownDomains ∧ s' = loaded c'.content := by
  have hsame : ∀ {r₁ : Except HubError Unit}, (r₁, c, s) = (r, c', s') →
      c'.domains = ownDomains ∧ s' = loaded c'.content := by
    intro r₁ h
    cases h
    exact ⟨hd, hs⟩
  obtain ⟨k, v⟩ := e
  by_cases hk : k = itemsKey
  · subst hk
    by_cases hmap : ∃ es, c.content = .map es
    · obtain ⟨es, hes⟩ := hmap
      rw [takeAll_items hd hes] at h
      rcases hv : v.same? ((Setting.find? itemsKey es).getD .null) with _ | _ | _ <;> simp only [hv] at h
      · exact hsame h
      · cases hcheck : Inventory.schema.check v with
        | error cs =>
          rw [hcheck] at h
          exact hsame h
        | ok w =>
          rw [hcheck] at h
          cases h
          refine ⟨hd, ?_⟩
          -- the inventory is loaded from what has been put under the key
          have hput : Setting.find? itemsKey (Setting.put es itemsKey v) = some v := Setting.find?_put_text es itemsDomain v
          rw [loaded_map, hput]
          show (s.load w).2 = match Inventory.schema.check v with | .ok w => _ | .error _ => _
          rw [hcheck, Inventory.load_eq (hs ▸ isOnly_loaded c.content)]
      · exact hsame h
    · rw [Configuration.takeAll] at h
      split at h
      · next es hes => exact absurd ⟨es, hes⟩ hmap
      · exact hsame h
  · have hothers : ∃ r₁, c.takeAll tell .configuration s [(k, v)] = (r₁, c, s) := takeAll_others hd (by simpa using hk)
    obtain ⟨r₁, h₁⟩ := hothers
    rw [h₁] at h
    exact hsame h

theorem settled_takeAll (hd : c.domains = ownDomains) (hs : s = loaded c.content) (new : List (Setting × Setting))
    {r : Except HubError Unit} {c' : Configuration} {s' : Inventory}
    (h : c.takeAll tell .configuration s new = (r, c', s')) : c'.domains = ownDomains ∧ s' = loaded c'.content := by
  induction new generalizing c s with
  | nil =>
    cases h
    exact ⟨hd, hs⟩
  | cons e new ih =>
    rw [← List.singleton_append, Configuration.takeAll_append] at h
    rcases hone : c.takeAll tell .configuration s [e] with ⟨_ | _, c₁, s₁⟩
    · rw [hone] at h
      cases h
      exact settled_takeOne hd hs e hone
    · rw [hone] at h
      obtain ⟨hd₁, hs₁⟩ := settled_takeOne hd hs e hone
      exact ih hd₁ hs₁ h

theorem reload_map {h : Hub} (hd : h.configuration.domains = ownDomains) (es : List (Setting × Setting)) :
    h.reload (.ok (.map es)) = match h.configuration.takeAll tell .configuration h.inventory es with
      | (r, c, v) => (r, ⟨c, v⟩) := by
  have hlisten : ∀ name d, h.configuration.domains.get? name = some d → d.listens = true := by
    intro name d hget
    rw [hd, ownDomains, Table.get?_cons] at hget
    split_ifs at hget
    · cases hget
      rfl
    · exact absurd hget (by simp)
  obtain ⟨told, htold⟩ := Configuration.takeAll_notify hlisten tell HubError.configuration [] h.inventory es
  have hupdate :
      h.configuration.update (Configuration.notify tell) HubError.configuration ([], h.inventory) none (.map es) =
        h.configuration.takeAll (Configuration.notify tell) HubError.configuration ([], h.inventory) es := rfl
  simp only [reload, Configuration.reload, hupdate, htold]
  rcases h.configuration.takeAll tell .configuration h.inventory es with ⟨_ | _, c, v⟩ <;> rfl

theorem Settled.reload {h : Hub} (hs : h.Settled) (content : Except ConfigurationError Setting) :
    (h.reload content).2.Settled := by
  cases content with
  | error e => exact hs
  | ok new =>
    cases new with
    | map es =>
      rcases htake : h.configuration.takeAll tell .configuration h.inventory es with ⟨r, c', s'⟩
      obtain ⟨hd', hs'⟩ := settled_takeAll hs.domains hs.inventory es htake
      rw [reload_map hs.domains, htake]
      exact ⟨hd', hs'⟩
    | _ => exact hs

/-- The hub after a start with a content and some reloads, of which any may fail. -/
def after (content : Setting) (versions : List (Except ConfigurationError Setting)) : Hub :=
  versions.foldl (fun h v => (h.reload v).2) (ofContent content).start.2

/-- **No reload unsettles a hub.** -/
theorem settled_after (content : Setting) (versions : List (Except ConfigurationError Setting)) :
    (after content versions).Settled := by
  unfold after
  generalize hh : (ofContent content).start.2 = h
  have hs : h.Settled := hh ▸ settled_start content
  clear hh
  induction versions generalizing h with
  | nil => exact hs
  | cons v versions ih => exact ih _ (hs.reload v)

/-! ## Reloading -/

/-- The new content has no items, but the items that are held are valid, and some are enabled. -/
def LeftBehind (held new : Setting) : Prop :=
  items? new = none ∧ ∃ t w, items? held = some t ∧ Inventory.schema.check t = .ok w ∧ Inventory.HasEnabled t

/-- The new items, of which some are enabled, are the same as those that are held, but only the new ones are valid. -/
def PassedOver (held new : Setting) : Prop :=
  ∃ x t, items? new = some x ∧ items? held = some t ∧ x.same? t = some true ∧
    (∀ w, Inventory.schema.check t ≠ .ok w) ∧ Inventory.HasEnabled x

theorem loaded_of_none {content : Setting} (h : items? content = none) : loaded content = {} := by
  by_cases hmap : ∃ es, content = .map es
  · obtain ⟨es, rfl⟩ := hmap
    have hfind : Setting.find? itemsKey es = none := h
    rw [loaded_map, hfind]
    rfl
  · rw [loaded, start_other fun es hes => hmap ⟨es, hes⟩]

theorem loaded_of_some {content t : Setting} (h : items? content = some t) : loaded content =
    match Inventory.schema.check t with
      | .ok w => (({} : Inventory).load w).2
      | .error _ => {} := by
  cases content with
  | map es =>
    have hfind : Setting.find? itemsKey es = some t := h
    rw [loaded_map, hfind]
    rfl
  | _ => exact absurd h (by simp [items?])

variable {h : Hub}

/-- A reload without items keeps the inventory. -/
theorem inventory_reload_none (hs : h.Settled) (hnone : Setting.find? itemsKey es = none) :
    (h.reload (.ok (.map es))).2.inventory = h.inventory := by
  have hk : ∀ e ∈ es, e.1 ≠ itemsKey := by
    intro e he hk
    have := Setting.find?_eq_none.1 hnone e he
    rw [hk, itemsKey, Setting.sameScalar_text.2 rfl] at this
    exact absurd this (by simp)
  obtain ⟨r, hr⟩ := takeAll_others hs.domains (s := h.inventory) hk
  rw [reload_map hs.domains, hr]

/-- A reload with items keeps the inventory if they are the same as those that are held, else it loads them if they are
valid. -/
theorem inventory_reload_some (hs : h.Settled) (hd : Setting.DistinctKeys es) {x : Setting}
    (hx : Setting.find? itemsKey es = some x) (hok : (h.reload (.ok (.map es))).1 = .ok ()) :
    (x.same? ((items? h.configuration.content).getD .null) = some true ∧
      (h.reload (.ok (.map es))).2.inventory = h.inventory) ∨
    (x.same? ((items? h.configuration.content).getD .null) = some false ∧
      ∀ w, Inventory.schema.check x = .ok w → (h.reload (.ok (.map es))).2.inventory = (({} : Inventory).load w).2) := by
  obtain ⟨front, back, hes, hfront, hback⟩ := hd.cut hx
  change es = front ++ ([(itemsKey, x)] ++ back) at hes
  obtain ⟨r₁, h₁⟩ := takeAll_others hs.domains (s := h.inventory) hfront
  rcases h₂ : h.configuration.takeAll tell .configuration h.inventory [(itemsKey, x)] with ⟨r₂, c₂, s₂⟩
  obtain ⟨hd₂, _⟩ := settled_takeOne hs.domains hs.inventory _ h₂
  obtain ⟨r₃, h₃⟩ := takeAll_others hd₂ (s := s₂) hback
  rw [reload_map hs.domains, hes, Configuration.takeAll_append, h₁] at hok ⊢
  -- neither the entries before nor the items end the reload
  cases r₁ with
  | error e => exact absurd hok (by simp)
  | ok _ =>
    simp only [Configuration.takeAll_append, h₂] at hok ⊢
    cases r₂ with
    | error e => exact absurd hok (by simp)
    | ok _ =>
      simp only [h₃]
      by_cases hmap : ∃ held, h.configuration.content = .map held
      · obtain ⟨held, hheld⟩ := hmap
        have hitems : items? h.configuration.content = Setting.find? itemsKey held := by rw [hheld]; rfl
        rw [takeAll_items hs.domains hheld] at h₂
        rw [hitems]
        rcases hv : x.same? ((Setting.find? itemsKey held).getD .null) with _ | _ | _ <;> rw [hv] at h₂
        · exact absurd h₂ (by simp)
        · right
          refine ⟨rfl, fun w hw => ?_⟩
          simp only [hw, Prod.mk.injEq] at h₂
          rw [← h₂.2.2, Inventory.load_eq (hs.inventory ▸ isOnly_loaded _)]
        · cases h₂
          exact .inl ⟨rfl, rfl⟩
      · rw [Configuration.takeAll] at h₂
        split at h₂
        · next held hheld => exact absurd ⟨held, hheld⟩ hmap
        · exact absurd h₂ (by simp)

/-- A start that succeeds has loaded valid items, or none. -/
theorem start_ok {content : Setting} (hstart : (ofContent content).start.1 = .ok ()) :
    ∃ es, content = .map es ∧
      ∃ w, Inventory.schema.check ((Setting.find? itemsKey es).getD (.list [])) = .ok w ∧
        loaded (.map es) = (({} : Inventory).load w).2 := by
  by_cases hmap : ∃ es, content = .map es
  · obtain ⟨es, rfl⟩ := hmap
    rw [start_map] at hstart
    cases hw : Inventory.schema.check ((Setting.find? itemsKey es).getD (.list [])) with
    | ok w => exact ⟨es, rfl, w, hw, by rw [loaded_map, hw]⟩
    | error cs =>
      rw [hw] at hstart
      exact absurd hstart (by simp)
  · rw [start_other fun es hes => hmap ⟨es, hes⟩] at hstart
    exact absurd hstart (by simp)

/-- The inventories have different items if `p` holds, and are the same if not. -/
def DifferIf (p : Prop) (v w : Inventory) : Prop := (p → v.items ≠ w.items) ∧ (¬ p → v = w)

namespace DifferIf

variable {p q : Prop} {v w : Inventory}

theorem of_eq (h : v = w) (hp : ¬ p) : DifferIf p v w := ⟨fun h => absurd h hp, fun _ => h⟩

theorem symm (h : DifferIf p v w) : DifferIf p w v := ⟨fun hp => (h.1 hp).symm, fun hp => (h.2 hp).symm⟩

theorem congr (h : DifferIf q v w) (hpq : p ↔ q) : DifferIf p v w :=
  ⟨fun hp => h.1 (hpq.1 hp), fun hp => h.2 fun hq => hp (hpq.2 hq)⟩

end DifferIf

/-- A start loads something exactly if there are valid items, and some are enabled. -/
theorem loaded_differ (content : Setting) :
    DifferIf (∃ t w, items? content = some t ∧ Inventory.schema.check t = .ok w ∧ Inventory.HasEnabled t)
      (loaded content) {} := by
  cases ht : items? content with
  | none => exact .of_eq (loaded_of_none ht) (by simp)
  | some t =>
    rw [loaded_of_some ht]
    cases hcheck : Inventory.schema.check t with
    | error cs =>
      refine .of_eq rfl ?_
      rintro ⟨t', w, ht', hw, _⟩
      cases ht'
      rw [hcheck] at hw
      exact absurd hw (by simp)
    | ok w =>
      obtain ⟨henabled, hdisabled⟩ := Inventory.load_of_check hcheck
      constructor
      · rintro ⟨t', _, ht', _, hen⟩
        cases ht'
        exact henabled hen
      · exact fun hno => hdisabled fun hen => hno ⟨t, w, rfl, hcheck, hen⟩

/-- Content without items is loaded as nothing, so what is held differs from it if something was loaded. -/
theorem differ_of_none {held new : Setting} (hnew : items? new = none) :
    DifferIf (LeftBehind held new ∨ PassedOver held new) (loaded held) (loaded new) := by
  rw [loaded_of_none hnew]
  exact (loaded_differ held).congr (by simp [LeftBehind, PassedOver, hnew])

/-- Items that are the same as those that are held load the same, unless only the new ones are valid. -/
theorem differ_of_same {held new x w : Setting} (hnew : items? new = some x) (hproper : x.Proper)
    (hw : Inventory.schema.check x = .ok w) (hsame : x.same? ((items? held).getD .null) = some true) :
    DifferIf (LeftBehind held new ∨ PassedOver held new) (loaded held) (loaded new) := by
  cases ht : items? held with
  | none =>
    -- valid items are no null
    obtain ⟨ess, rfl, _⟩ := Inventory.check_ok hw
    rw [ht] at hsame
    exact absurd hsame (by simp [Setting.same?, Setting.sameInside?])
  | some t =>
    rw [ht, Option.getD_some] at hsame
    cases hcheck : Inventory.schema.check t with
    | ok w' =>
      refine .of_eq ?_ (by simp [LeftBehind, PassedOver, hnew, ht, hcheck])
      rw [loaded_of_some ht, loaded_of_some hnew, hcheck, hw]
      exact congrArg Prod.snd (Inventory.load_congr hproper hsame hw hcheck {}).symm
    | error cs =>
      have hnothing : loaded held = {} := by rw [loaded_of_some ht, hcheck]
      rw [hnothing]
      exact (loaded_differ new).symm.congr (by simp [LeftBehind, PassedOver, hnew, ht, hsame, hcheck, hw])

/-- Items that differ from those that are held are neither left behind nor passed over. -/
theorem not_left_of_differ {held new x : Setting} (hnew : items? new = some x)
    (hdiffer : x.same? ((items? held).getD .null) = some false) : ¬ (LeftBehind held new ∨ PassedOver held new) := by
  rintro (⟨hnone, _⟩ | ⟨x', t, hx', ht, hsame, _⟩)
  · rw [hnew] at hnone
    exact absurd hnone (by simp)
  · rw [hnew] at hx'
    cases hx'
    rw [ht, Option.getD_some, hsame] at hdiffer
    exact absurd hdiffer (by simp)

/-- **Reloading and starting again.**  When a reload of a content that can be started with succeeds, whatever has been
loaded before, the inventory is that of a start with the content, unless items are left behind or passed over; then not
even the items are the same. -/
theorem reload_outcomes (content : Setting) (versions : List (Except ConfigurationError Setting)) (new : Setting)
    (hproper : new.Proper) (hreload : ((after content versions).reload (.ok new)).1 = .ok ())
    (hstart : (ofContent new).start.1 = .ok ()) :
    let held := (after content versions).configuration.content
    let reloaded := ((after content versions).reload (.ok new)).2.inventory
    let started := (ofContent new).start.2.inventory
    (LeftBehind held new ∨ PassedOver held new → reloaded.items ≠ started.items) ∧
      (¬ (LeftBehind held new ∨ PassedOver held new) → reloaded = started) := by
  intro held reloaded started
  have hs := settled_after content versions
  have hheld : (after content versions).inventory = loaded held := hs.inventory
  obtain ⟨es, rfl, w, hw, hstarted⟩ := start_ok hstart
  show DifferIf (LeftBehind held (.map es) ∨ PassedOver held (.map es)) reloaded (loaded (.map es))
  cases hx : Setting.find? itemsKey es with
  | none =>
    have hreloaded : reloaded = loaded held := (inventory_reload_none hs hx).trans hheld
    rw [hreloaded]
    exact differ_of_none hx
  | some x =>
    rw [hx, Option.getD_some] at hw
    rcases inventory_reload_some hs hproper.1 hx hreload with ⟨hsame, hkept⟩ | ⟨hdiffer, hloaded⟩
    · have hreloaded : reloaded = loaded held := hkept.trans hheld
      have hxproper : x.Proper := hproper.2.mem (itemsKey, x) (Setting.mem_of_find?_text hx)
      rw [hreloaded]
      exact differ_of_same hx hxproper hw hsame
    · have hreloaded : reloaded = loaded (.map es) := (hloaded w hw).trans hstarted.symm
      exact .of_eq hreloaded (not_left_of_differ hx hdiffer)

def ofItem (name : String) (enabled : Setting) : Setting := .map [(itemsKey, .list [.map [
  (.text (.of "name"), .text (.of name)), (.text (.of "type"), .text (.of "Switch")),
  (.text (.of "http"), .text (.of "-")), (.text (.of "enabled"), enabled)]])]

/-- A file that was missing for a while and comes back with another item. -/
theorem reload_other_item :
    let versions := [.error (.noFile (.of "configuration.yaml")), .ok (ofItem "B" (.bool true))]
    let new := ofItem "C" (.bool true)
    let h := after (ofItem "A" (.bool true)) versions
    (new.Proper ∧ (h.reload (.ok new)).1 = .ok () ∧ (ofContent new).start.1 = .ok ()) ∧
      (h.reload (.ok new)).2.inventory = (ofContent new).start.2.inventory := by
  intro versions new h
  have hproper : new.Proper := by
    simp only [Setting.Proper, Setting.AllProper, Setting.ValuesProper, Setting.DistinctKeys, new, ofItem, itemsKey]
    decide
  have hreload : (h.reload (.ok new)).1 = .ok () := rfl
  have hstart : (ofContent new).start.1 = .ok () := rfl
  refine ⟨⟨hproper, hreload, hstart⟩, (reload_outcomes _ versions new hproper hreload hstart).2 ?_⟩
  rintro (⟨hnone, _⟩ | ⟨x, t, hx, ht, hsame, _⟩)
  · cases hnone
  · cases hx
    cases ht
    exact absurd hsame (by decide)

/-- Items stay when the file has none any more, and are not loaded when they were not valid but the same before. -/
theorem reload_not_started :
    (((after (ofItem "A" (.bool true)) []).reload (.ok (.map []))).1 = .ok () ∧ (ofContent (.map [])).start.1 = .ok () ∧
      ((after (ofItem "A" (.bool true)) []).reload (.ok (.map []))).2.inventory.items ≠
        (ofContent (.map [])).start.2.inventory.items) ∧
    ((after (ofItem "A" (.int 1)) []).reload (.ok (ofItem "A" (.bool true)))).1 = .ok () ∧
      (ofContent (ofItem "A" (.bool true))).start.1 = .ok () ∧
      ((after (ofItem "A" (.int 1)) []).reload (.ok (ofItem "A" (.bool true)))).2.inventory.items ≠
        (ofContent (ofItem "A" (.bool true))).start.2.inventory.items :=
  ⟨⟨rfl, rfl, by decide⟩, rfl, rfl, by decide⟩

end Hub

end RequestRules
