import RequestRules.Configuration
import RequestRules.Proofs.Outcome
import RequestRules.Proofs.Setting

/-!
# What a reload changes

An entry of a later content changes a domain if it differs from what is held, the domain is registered, and the entry is
valid for it (`Configuration.Changes`).  A reload takes over these entries and no others (`Configuration.takes_reload`):
an entry that changes nothing does not keep those behind it from being taken over.  Only two settings that both go on
without an end cannot be compared, and end the reload where they meet.
-/

namespace RequestRules

/-- `v` is valid for the domain, where it is taken as `w`. -/
def Domain.Passes (d : Domain) (v w : Setting) : Prop :=
  match d.schema with
  | none => w = v
  | some s => s.check v = .ok w

theorem Domain.Passes.unique {d : Domain} {v w w' : Setting} (h : d.Passes v w) (h' : d.Passes v w') : w = w' := by
  unfold Domain.Passes at h h'
  cases hschema : d.schema with
  | none =>
    rw [hschema] at h h'
    exact h.trans h'.symm
  | some s =>
    rw [hschema] at h h'
    exact Except.ok.inj (h.symm.trans h')

namespace Configuration

/-! ## One entry -/

/-- An entry says the same as what is held under its key, which is null if nothing is, unless both have no end. -/
def sameAsHeld? (es : List (Setting × Setting)) (e : Setting × Setting) : Option Bool :=
  e.2.same? ((Setting.find? e.1 es).getD .null)

theorem sameAsHeld?_isSome {es : List (Setting × Setting)} {e : Setting × Setting}
    (h : e.2.hasEnd = true ∨ ∀ v, Setting.find? e.1 es = some v → v.hasEnd = true) : (sameAsHeld? es e).isSome := by
  refine Setting.same?_isSome (h.imp_right fun hheld => ?_)
  cases hfind : Setting.find? e.1 es with
  | none => rfl
  | some v => exact hheld v hfind

/-- An entry changes a domain while `es` is held: it differs, and is valid for a registered domain. -/
structure Changes (domains : Table Domain) (es : List (Setting × Setting)) (e : Setting × Setting)
    (x : Change) : Prop where
  key : e.1 = .text x.domain
  differs : sameAsHeld? es e = some false
  /-- what is told is the setting as the schema gives it back -/
  valid : ∃ d, domains.get? x.domain = some d ∧ d.Passes e.2 x.setting ∧ x.listens = d.listens

variable {domains : Table Domain} {c : Configuration} {es fs new : List (Setting × Setting)} {e : Setting × Setting}
  {x y : Change} {k v w : Setting}

theorem sameAsHeld?_congr (hfind : Setting.find? e.1 fs = Setting.find? e.1 es) :
    sameAsHeld? fs e = sameAsHeld? es e := by
  rw [sameAsHeld?, sameAsHeld?, hfind]

theorem Changes.congr (hfind : Setting.find? e.1 fs = Setting.find? e.1 es) :
    Changes domains fs e x ↔ Changes domains es e x := by
  have hsame : sameAsHeld? fs e = sameAsHeld? es e := sameAsHeld?_congr hfind
  constructor
  · rintro ⟨hkey, hdiffers, hvalid⟩
    exact ⟨hkey, hsame ▸ hdiffers, hvalid⟩
  · rintro ⟨hkey, hdiffers, hvalid⟩
    exact ⟨hkey, hsame ▸ hdiffers, hvalid⟩

theorem Changes.unique (hx : Changes domains es e x) (hy : Changes domains es e y) : x = y := by
  obtain ⟨name, setting, listens⟩ := x
  obtain ⟨name', setting', listens'⟩ := y
  have hname : name = name' := Setting.text.inj (hx.key.symm.trans hy.key)
  subst hname
  obtain ⟨d, hd, hw, rfl⟩ := hx.valid
  obtain ⟨d', hd', hw', rfl⟩ := hy.valid
  cases hd.symm.trans hd'
  have hsetting : setting = setting' := hw.unique hw'
  rw [hsetting]

theorem validate_eq_ok {name : Text} {d : Domain} (hd : c.domains.get? name = some d) :
    c.validate name v = .ok w ↔ d.Passes v w := by
  unfold validate Domain.Passes
  rw [hd, Option.bind_some]
  cases d.schema with
  | none => exact ⟨fun h => (Except.ok.inj h).symm, fun h => congrArg Except.ok h.symm⟩
  | some s => exact Outcome.mapError_eq_ok

theorem domain?_eq_some {name : Text} {d : Domain} :
    c.domain? k = some (name, d) ↔ k = .text name ∧ c.domains.get? name = some d := by
  cases k with
  | text t =>
    rw [domain?, Option.map_eq_some_iff]
    constructor
    · rintro ⟨d', hd, heq⟩
      cases heq
      exact ⟨rfl, hd⟩
    · rintro ⟨heq, hd⟩
      cases heq
      exact ⟨d, hd, rfl⟩
  | _ => simp [domain?]

/-- **What an entry does**: it changes its domain and is put under its key, or it changes nothing. -/
theorem take_cases {b : Bool} (hb : sameAsHeld? es (k, v) = some b) :
    (take es c k v = .ok none ∧ ∀ x, ¬ Changes c.domains es (k, v) x) ∨
      ∃ x, Changes c.domains es (k, v) x ∧
        take es c k v = .ok (some (x, { c with content := .map (Setting.put es k v) })) := by
  have hsame : v.same? ((Setting.find? k es).getD .null) = some b := hb
  unfold take
  rw [hsame]
  cases b with
  | true => exact .inl ⟨rfl, fun x hx => absurd (hb.symm.trans hx.differs) (by simp)⟩
  | false =>
    cases hdomain : c.domain? k with
    | none =>
      refine .inl ⟨rfl, fun x hx => ?_⟩
      obtain ⟨d, hd, _⟩ := hx.valid
      exact absurd (hdomain.symm.trans (domain?_eq_some.2 ⟨hx.key, hd⟩)) (by simp)
    | some nd =>
      obtain ⟨name, d⟩ := nd
      obtain ⟨rfl, hd⟩ := domain?_eq_some.1 hdomain
      cases hcheck : c.validate name v with
      | ok w =>
        refine .inr ⟨⟨name, w, d.listens⟩, ⟨rfl, hb, d, hd, (validate_eq_ok hd).1 hcheck, rfl⟩, ?_⟩
        simp only [Option.bind_eq_bind, Option.bind_some, hcheck]
        rfl
      | error f =>
        refine .inl ⟨?_, fun x hx => ?_⟩
        · simp only [Option.bind_eq_bind, Option.bind_some, hcheck]
        · obtain ⟨d', hd', hpasses, _⟩ := hx.valid
          have hname : name = x.domain := Setting.text.inj hx.key
          rw [← hname] at hd'
          exact absurd (hcheck.symm.trans ((validate_eq_ok hd').2 hpasses)) (by simp)

theorem take_endless (h : sameAsHeld? es (k, v) = none) : take es c k v = .error (.fault .endless) := by
  have hsame : v.same? ((Setting.find? k es).getD .null) = none := h
  unfold take
  rw [hsame]

theorem take_some {c' : Configuration} (h : take es c k v = .ok (some (x, c'))) :
    Changes c.domains es (k, v) x ∧ c' = { c with content := .map (Setting.put es k v) } := by
  cases hsame : sameAsHeld? es (k, v) with
  | none => exact absurd ((take_endless hsame).symm.trans h) (by simp)
  | some b =>
    rcases take_cases hsame with ⟨hnone, _⟩ | ⟨y, hy, htake⟩
    · exact absurd (hnone.symm.trans h) (by simp)
    · cases htake.symm.trans h
      exact ⟨hy, rfl⟩

/-! ## The entries of a content -/

/-- A reload of a domain looks at the entries under its name, one of no domain at all entries. -/
def Asked (domain : Option Text) (k : Setting) : Prop :=
  domain = none ∨ domain = some [] ∨ ∃ name, domain = some name ∧ k = .text name

theorem only_nil (domain : Option Text) : only domain [] = [] := by
  rcases domain with _ | _ | _ <;> rfl

theorem only_some (a : CodePoint) (name : Text) (new : List (Setting × Setting)) :
    only (some (a :: name)) new = new.filter fun e => e.1.isText (a :: name) := rfl

theorem only_cons_asked {domain : Option Text} (h : Asked domain e.1) (new : List (Setting × Setting)) :
    only domain (e :: new) = e :: only domain new := by
  rcases h with rfl | rfl | ⟨name, rfl, hk⟩
  · rfl
  · rfl
  · cases name with
    | nil => rfl
    | cons a name =>
      rw [only_some, only_some]
      exact List.filter_cons_of_pos (Setting.isText_iff.2 hk)

theorem only_cons_other {domain : Option Text} (h : ¬ Asked domain e.1) (new : List (Setting × Setting)) :
    only domain (e :: new) = only domain new := by
  cases domain with
  | none => exact absurd (.inl rfl) h
  | some name =>
    cases name with
    | nil => exact absurd (.inr (.inl rfl)) h
    | cons a name =>
      rw [only_some, only_some]
      exact List.filter_cons_of_neg fun htext => h (.inr (.inr ⟨_, rfl, Setting.isText_iff.1 htext⟩))

/-- A later content has changed the domains `changes`, and `fs` is held instead of `es`. -/
structure Takes (domains : Table Domain) (domain : Option Text) (es new : List (Setting × Setting))
    (changes : List Change) (fs : List (Setting × Setting)) : Prop where
  /-- the changes are in the order of the content -/
  order : (changes.map fun x => Setting.text x.domain).Sublist (new.map Prod.fst)
  mem : ∀ x, x ∈ changes ↔ ∃ e ∈ new, Asked domain e.1 ∧ Changes domains es e x
  /-- what is held is the setting as it is written -/
  taken : ∀ e ∈ new, Asked domain e.1 → ∀ x, Changes domains es e x → Setting.find? e.1 fs = some e.2
  kept : ∀ k, (∀ x ∈ changes, k ≠ .text x.domain) → Setting.find? k fs = Setting.find? k es

namespace Takes

variable {domain : Option Text} {changes : List Change}

theorem nil : Takes domains domain es [] [] es :=
  ⟨.refl _, fun x => by simp, fun e he => absurd he List.not_mem_nil, fun _ _ => rfl⟩

theorem skip (h : Takes domains domain es new changes fs) (hskip : Asked domain e.1 → ∀ x, ¬ Changes domains es e x) :
    Takes domains domain es (e :: new) changes fs := by
  refine ⟨h.order.cons _, fun x => ?_, fun e' he' hask x hx => ?_, h.kept⟩
  · rw [h.mem]
    constructor
    · rintro ⟨e', he', hx⟩
      exact ⟨e', List.mem_cons_of_mem _ he', hx⟩
    · rintro ⟨e', he', hask, hx⟩
      rcases List.mem_cons.1 he' with rfl | he'
      · exact absurd hx (hskip hask x)
      · exact ⟨e', he', hask, hx⟩
  · rcases List.mem_cons.1 he' with rfl | he'
    · exact absurd hx (hskip hask x)
    · exact h.taken e' he' hask x hx

/-- Entries with other keys change other domains. -/
theorem ne_domain (h : Takes domains domain es new changes fs) (hother : ∀ f ∈ new, Setting.sameScalar k f.1 = false) :
    ∀ x ∈ changes, k ≠ .text x.domain := by
  rintro x hx rfl
  obtain ⟨f, hf, _, hchange⟩ := (h.mem x).1 hx
  have hsame : Setting.sameScalar (.text x.domain) f.1 = true := Setting.sameScalar_text.2 hchange.key
  rw [hother f hf] at hsame
  exact absurd hsame (by simp)

/-- An entry that changes its domain, before others with other keys. -/
theorem take (h : Takes domains domain (Setting.put es e.1 e.2) new changes fs)
    (hother : ∀ f ∈ new, Setting.sameScalar e.1 f.1 = false) (hask : Asked domain e.1) (hx : Changes domains es e x) :
    Takes domains domain es (e :: new) (x :: changes) fs := by
  have hfind : ∀ f ∈ new, Setting.find? f.1 (Setting.put es e.1 e.2) = Setting.find? f.1 es :=
    fun f hf => Setting.find?_put_other (hother f hf) es e.2
  refine ⟨?_, fun y => ?_, fun f hf hfask y hy => ?_, fun k hk => ?_⟩
  · rw [List.map_cons, List.map_cons, ← hx.key]
    exact h.order.cons_cons _
  · rw [List.mem_cons, h.mem]
    constructor
    · rintro (rfl | ⟨f, hf, hfask, hy⟩)
      · exact ⟨e, List.mem_cons_self, hask, hx⟩
      · exact ⟨f, List.mem_cons_of_mem _ hf, hfask, (Changes.congr (hfind f hf)).1 hy⟩
    · rintro ⟨f, hf, hfask, hy⟩
      rcases List.mem_cons.1 hf with rfl | hf
      · exact .inl (hy.unique hx)
      · exact .inr ⟨f, hf, hfask, (Changes.congr (hfind f hf)).2 hy⟩
  · rcases List.mem_cons.1 hf with rfl | hf
    · rw [h.kept _ (h.ne_domain hother), hx.key]
      exact Setting.find?_put_text es x.domain f.2
    · exact h.taken f hf hfask y ((Changes.congr (hfind f hf)).2 hy)
  · rw [h.kept k fun y hy => hk y (List.mem_cons_of_mem _ hy)]
    refine Setting.find?_put_other ?_ es e.2
    by_contra hsame
    rw [hx.key] at hsame
    exact hk x List.mem_cons_self (Setting.sameScalar_text.1 (by simpa using hsame))

end Takes

theorem only_append (domain : Option Text) (front back : List (Setting × Setting)) :
    only domain (front ++ back) = only domain front ++ only domain back := by
  rcases domain with _ | _ | ⟨a, name⟩
  · rfl
  · rfl
  · exact List.filter_append ..

/-! ## A whole content -/

section TakeAll

variable {σ ε : Type} (tell : Change → σ → Except ε Unit × σ) (ofError : ConfigurationError → ε)

theorem takeAll_cons (hc : c.content = .map es) (s : σ) (k v : Setting) (new : List (Setting × Setting)) :
    c.takeAll tell ofError s ((k, v) :: new) = match take es c k v with
      | .error e => (.error (ofError e), c, s)
      | .ok none => c.takeAll tell ofError s new
      | .ok (some (change, c)) =>
        match tell change s with
        | (.ok (), s) => c.takeAll tell ofError s new
        | (.error e, s) => (.error e, c, s) := by
  obtain ⟨content, domains⟩ := c
  cases hc
  rfl

theorem takeAll_append (c : Configuration) (s : σ) (new later : List (Setting × Setting)) :
    c.takeAll tell ofError s (new ++ later) = match c.takeAll tell ofError s new with
      | (.ok (), c, s) => c.takeAll tell ofError s later
      | (.error e, c, s) => (.error e, c, s) := by
  induction new generalizing c s with
  | nil => rfl
  | cons e new ih =>
    obtain ⟨k, v⟩ := e
    rw [List.cons_append, takeAll, takeAll]
    split
    · split
      · rfl
      · exact ih c s
      · split
        · exact ih _ _
        · rfl
    · rfl

variable {tell}

/-- What every change that is told keeps, a whole content keeps. -/
theorem takeAll_invariant {P : σ → Prop} (htell : ∀ x s, P s → P (tell x s).2) {s : σ} (h : P s) (c : Configuration)
    (new : List (Setting × Setting)) : P (c.takeAll tell ofError s new).2.2 := by
  induction new generalizing c s with
  | nil => exact h
  | cons e new ih =>
    obtain ⟨k, v⟩ := e
    rw [takeAll]
    split
    · split
      · exact h
      · exact ih h c
      · next x c' _ =>
        have hx := htell x s h
        rcases htold : tell x s with ⟨_ | _, s'⟩ <;> rw [htold] at hx
        · exact hx
        · exact ih hx c'
    · exact h

/-- Entries that can be compared are taken over one after the other, if all who are told return. -/
theorem takeAll_only (htell : ∀ x s, (tell x s).1 = .ok ()) {domain : Option Text} (hc : c.content = .map es)
    (hd : Setting.DistinctKeys new) (hsame : ∀ e ∈ new, Asked domain e.1 → (sameAsHeld? es e).isSome) (s : σ)
    (later : List (Setting × Setting)) :
    ∃ changes fs, Takes c.domains domain es new changes fs ∧
      c.takeAll tell ofError s (only domain new ++ later) = takeAll tell ofError ⟨.map fs, c.domains⟩
        (changes.foldl (fun s x => (tell x s).2) s) later := by
  induction new generalizing c es s with
  | nil => exact ⟨[], es, .nil, by rw [only_nil, ← hc]; rfl⟩
  | cons e new ih =>
    obtain ⟨hother, hd⟩ := List.pairwise_cons.1 hd
    have hrest : ∀ f ∈ new, Asked domain f.1 → (sameAsHeld? es f).isSome :=
      fun f hf => hsame f (List.mem_cons_of_mem _ hf)
    by_cases hask : Asked domain e.1
    · obtain ⟨b, hb⟩ := Option.isSome_iff_exists.1 (hsame e List.mem_cons_self hask)
      rw [only_cons_asked hask, List.cons_append, takeAll_cons tell ofError hc]
      rcases take_cases hb with ⟨hnone, hno⟩ | ⟨x, hx, htake⟩
      · obtain ⟨changes, fs, htakes, hrun⟩ := ih hc hd hrest s
        rw [hnone]
        exact ⟨changes, fs, htakes.skip fun _ => hno, hrun⟩
      · -- the later entries have other keys, so that the same is held under them as before
        have hheld : ∀ f ∈ new, Asked domain f.1 → (sameAsHeld? (Setting.put es e.1 e.2) f).isSome := by
          intro f hf hfask
          rw [sameAsHeld?_congr (Setting.find?_put_other (hother f hf) es e.2)]
          exact hrest f hf hfask
        obtain ⟨changes, fs, htakes, hrun⟩ :=
          ih (c := { c with content := .map (Setting.put es e.1 e.2) }) rfl hd hheld (tell x s).2
        refine ⟨x :: changes, fs, htakes.take hother hask hx, ?_⟩
        have htold : tell x s = (.ok (), (tell x s).2) := Prod.ext (htell x s) rfl
        rw [htake]
        simp only
        rw [htold]
        exact hrun
    · obtain ⟨changes, fs, htakes, hrun⟩ := ih hc hd hrest s
      rw [only_cons_other hask]
      exact ⟨changes, fs, htakes.skip fun h => absurd h hask, hrun⟩

end TakeAll

/-! ## Reloads -/

section Reload

variable {σ ε : Type} {tell : Change → σ → Except ε Unit × σ}

theorem notify_ok (htell : ∀ x s, (tell x s).1 = .ok ()) (x : Change) (p : List Change × σ) :
    (notify tell x p).1 = .ok () := by
  unfold notify
  split_ifs
  · exact htell x p.2
  · rfl

/-- What every change that is told keeps, a reload keeps, whether it fails or not. -/
theorem reload_invariant {P : σ → Prop} (htell : ∀ x s, P s → P (tell x s).2) {s : σ} (h : P s) (c : Configuration)
    (ofError : ConfigurationError → ε) (domain : Option Text) (content : Except ConfigurationError Setting) :
    P (c.reload tell ofError s domain content).2.2 := by
  have hnotify : ∀ (x : Change) (p : List Change × σ), P p.2 → P (notify tell x p).2.2 := by
    intro x p hp
    unfold notify
    split_ifs
    · exact htell x p.2 hp
    · exact hp
  cases content with
  | error f => exact h
  | ok new =>
    cases new with
    | map es => exact takeAll_invariant ofError (P := fun p : List Change × σ => P p.2) hnotify (s := ([], s)) h c _
    | _ => exact h

theorem foldl_notify (changes told : List Change) (s : σ) :
    changes.foldl (fun p x => (notify tell x p).2) (told, s) =
      (told ++ changes, (changes.filter Change.listens).foldl (fun s x => (tell x s).2) s) := by
  induction changes generalizing told s with
  | nil => simp
  | cons x changes ih =>
    rw [List.foldl_cons]
    cases hx : x.listens with
    | true =>
      have htold : (notify tell x (told, s)).2 = (told ++ [x], (tell x s).2) := by rw [notify, if_pos hx]
      rw [htold, ih, List.filter_cons_of_pos hx, List.foldl_cons, List.append_assoc, List.singleton_append]
    | false =>
      have hx : ¬ x.listens = true := by simp [hx]
      have hkept : (notify tell x (told, s)).2 = (told ++ [x], s) := by rw [notify, if_neg hx]
      rw [hkept, ih, List.filter_cons_of_neg hx, List.append_assoc, List.singleton_append]

/-- If all domains have somebody who listens, all who would be told are told. -/
theorem takeAll_notify (hl : ∀ name d, c.domains.get? name = some d → d.listens = true)
    (tell : Change → σ → Except ε Unit × σ) (ofError : ConfigurationError → ε) (told : List Change) (s : σ)
    (new : List (Setting × Setting)) :
    ∃ told', c.takeAll (notify tell) ofError (told, s) new = ((c.takeAll tell ofError s new).1,
      (c.takeAll tell ofError s new).2.1, told', (c.takeAll tell ofError s new).2.2) := by
  induction new generalizing c told s with
  | nil => exact ⟨told, rfl⟩
  | cons e new ih =>
    obtain ⟨k, v⟩ := e
    cases hc : c.content with
    | map es =>
      rw [takeAll_cons _ _ hc, takeAll_cons _ _ hc]
      rcases htake : take es c k v with f | _ | ⟨x, c'⟩
      · exact ⟨told, rfl⟩
      · exact ih hl told s
      · obtain ⟨hx, rfl⟩ := take_some htake
        obtain ⟨d, hd, _, hlistens⟩ := hx.valid
        have hnotify : notify tell x (told, s) = ((tell x s).1, told ++ [x], (tell x s).2) := by
          rw [notify, if_pos (hlistens.trans (hl _ d hd))]
        simp only [hnotify]
        rcases tell x s with ⟨_ | _, s'⟩
        · exact ⟨_, rfl⟩
        · exact ih (c := ⟨.map (Setting.put es k v), c.domains⟩) hl (told ++ [x]) s'
    | _ =>
      have hstop : ∀ {τ : Type} (tell : Change → τ → Except ε Unit × τ) (s : τ),
          c.takeAll tell ofError s ((k, v) :: new) = (.error (ofError .notMap), c, s) := by
        intro τ tell s
        rw [takeAll, hc]
      exact ⟨told, by rw [hstop, hstop]⟩

/-- **A reload does exactly what has changed**, if those who are told return.  As long as the entries that are looked at
can be compared, they are taken over in order, and who listens is told; two that both have no end stop the reload, and
what was taken over before stays.  If there is no later content, nothing is changed. -/
theorem takes_reload (hc : c.content = .map es) (hd : Setting.DistinctKeys new) (htell : ∀ x s, (tell x s).1 = .ok ())
    (ofError : ConfigurationError → ε) (s : σ) (domain : Option Text) :
    ((∀ e ∈ new, Asked domain e.1 → (sameAsHeld? es e).isSome) →
      ∃ changes fs, Takes c.domains domain es new changes fs ∧
        c.reload tell ofError s domain (.ok (.map new)) = (.ok (changes.map Change.domain), ⟨.map fs, c.domains⟩,
          (changes.filter Change.listens).foldl (fun s x => (tell x s).2) s)) ∧
    (∀ front e back, new = front ++ e :: back → (∀ f ∈ front, Asked domain f.1 → (sameAsHeld? es f).isSome) →
      Asked domain e.1 → sameAsHeld? es e = none → ∃ changes fs, Takes c.domains domain es front changes fs ∧
        c.reload tell ofError s domain (.ok (.map new)) = (.error (ofError (.fault .endless)), ⟨.map fs, c.domains⟩,
          (changes.filter Change.listens).foldl (fun s x => (tell x s).2) s)) ∧
    ∀ f, c.reload tell ofError s domain (.error f) = (.error (ofError f), c, s) := by
  refine ⟨fun hsame => ?_, fun front e back hnew hsame hask hnone => ?_, fun _ => rfl⟩
  · obtain ⟨changes, fs, htakes, hrun⟩ := takeAll_only ofError (notify_ok htell) hc hd hsame ([], s) []
    rw [List.append_nil, foldl_notify] at hrun
    refine ⟨changes, fs, htakes, ?_⟩
    simp only [reload, update, hrun]
    rfl
  · subst hnew
    obtain ⟨hfront, _, hcross⟩ := List.pairwise_append.1 hd
    obtain ⟨changes, fs, htakes, hrun⟩ :=
      takeAll_only ofError (notify_ok htell) hc hfront hsame ([], s) (e :: only domain back)
    refine ⟨changes, fs, htakes, ?_⟩
    have hother : ∀ f ∈ front, Setting.sameScalar e.1 f.1 = false :=
      fun f hf => (Setting.sameScalar_comm e.1 f.1).trans (hcross f hf e List.mem_cons_self)
    have hend : take fs ⟨.map fs, c.domains⟩ e.1 e.2 = .error (.fault .endless) :=
      take_endless ((sameAsHeld?_congr (htakes.kept e.1 (htakes.ne_domain hother))).trans hnone)
    rw [foldl_notify, takeAll_cons _ _ rfl, hend] at hrun
    simp only [reload, update, only_append, only_cons_asked hask, hrun]
    rfl

/-- Behind an invalid and an unregistered entry two domains are changed, of which one is told. -/
theorem takes_reload_heating :
    let es : List (Setting × Setting) := [(.text (.of "room"), .text (.of "attic")), (.text (.of "heating"), .int 1)]
    let new : List (Setting × Setting) := [(.text (.of "room"), .int 3), (.text (.of "garden"), .bool true),
      (.text (.of "heating"), .int 2), (.text (.of "notes"), .list [.int 4])]
    let domains : Table Domain :=
      [(.of "heating", ⟨some .int, true⟩), (.of "room", ⟨some .text, true⟩), (.of "notes", {})]
    let c : Configuration := ⟨.map es, domains⟩
    ∃ changes fs, Takes domains none es new changes fs ∧
      c.reload record id [] none (.ok (.map new)) =
        (.ok (changes.map Change.domain), ⟨.map fs, domains⟩, [⟨.of "heating", .int 2, true⟩]) ∧
      changes.map Change.domain = [.of "heating", .of "notes"] := by
  intro es new domains c
  have hd : Setting.DistinctKeys new := by
    unfold Setting.DistinctKeys
    decide
  have hsame : ∀ e ∈ new, Asked none e.1 → (sameAsHeld? es e).isSome :=
    fun e he _ => sameAsHeld?_isSome (.inl (Setting.valuesHaveEnd_iff.1 rfl e he))
  have htell : ∀ x s, (record x s).1 = .ok () := fun _ _ => rfl
  obtain ⟨changes, fs, htakes, hrun⟩ := (takes_reload (c := c) rfl hd htell id [] none).1 hsame
  have heval : c.reload record id [] none (.ok (.map new)) = (.ok [.of "heating", .of "notes"],
      ⟨.map (es.take 1 ++ new.drop 2), domains⟩, [⟨.of "heating", .int 2, true⟩]) := rfl
  obtain ⟨hnames, _, htold⟩ : _ ∧ _ ∧ _ := by
    simpa only [Prod.mk.injEq, Except.ok.injEq] using heval.symm.trans hrun
  rw [← htold] at hrun
  exact ⟨changes, fs, htakes, hrun, hnames.symm⟩

end Reload

end Configuration

end RequestRules
