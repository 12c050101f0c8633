import RequestRules.Proofs.Configuration

/-!
# Calls that fail

`Configuration.call` registers a domain, validates a setting, or reloads the file, and `Configuration.run` does one call
after the other.

A failed call leaves everything as it was, with two exceptions (`Configuration.failed_call`).  Registering a new name
puts it in before its setting is looked at, so that a name whose setting is invalid is taken from then on, whatever is
done later.  And a reload that has begun to take over entries keeps those in front of the one where it stops.
-/

namespace RequestRules.Configuration

/-- What is asked of a configuration. -/
inductive Call
  | register (name : Text) (d : Domain) (fallback : Option Setting)
  | validate (domain : Text) (v : Setting)
  /-- the file has this content, or is not read -/
  | reload (domain : Option Text) (content : Except ConfigurationError Setting)

/-- No two entries of the content that is read have the same key. -/
def Call.DistinctKeys : Call → Prop
  | .reload _ (.ok (.map new)) => Setting.DistinctKeys new
  | _ => True

section Call

variable {σ ε : Type} (tell : Change → σ → Except ε Unit × σ) (ofError : ConfigurationError → ε)

/-- Whether a call succeeds, and what it leaves of the configuration and of those who are told. -/
def call (p : Configuration × σ) : Call → Except ε Unit × Configuration × σ
  | .register name d fallback =>
    let (r, c) := p.1.register name d fallback
    ((r.mapError ofError).map fun _ => (), c, p.2)
  | .validate domain v => (((p.1.validate domain v).mapError ofError).map fun _ => (), p)
  | .reload domain content =>
    let (r, p) := p.1.reload tell ofError p.2 domain content
    (r.map fun _ => (), p)

def run (p : Configuration × σ) (ks : List Call) : Configuration × σ :=
  ks.foldl (fun p k => (call tell ofError p k).2) p

end Call

variable {c : Configuration} {es fs new : List (Setting × Setting)} {f : Setting × Setting} {changes : List Change}
  {domain : Option Text} {name : Text}

/-! ## Names that are taken -/

theorem register_taken (h : c.domains.has name = true) (d : Domain) (fallback : Option Setting) :
    c.register name d fallback = (.error (.taken name), c) := if_pos h

theorem register_new (h : c.domains.has name = false) (d : Domain) (fallback : Option Setting) :
    (c.register name d fallback).2 = ⟨c.content, c.domains.put name d⟩ := by
  unfold register
  rw [h, if_neg (by simp)]
  obtain ⟨content, domains⟩ := c
  cases content <;> rfl

section Run

variable {σ ε : Type} (tell : Change → σ → Except ε Unit × σ) (ofError : ConfigurationError → ε)

theorem domains_takeAll (c : Configuration) (s : σ) (new : List (Setting × Setting)) :
    (c.takeAll tell ofError s new).2.1.domains = c.domains := by
  induction new generalizing c s with
  | nil => rfl
  | cons e new ih =>
    obtain ⟨k, v⟩ := e
    rw [takeAll]
    split
    · split
      · rfl
      · exact ih c s
      · next x c' htake =>
        obtain ⟨_, rfl⟩ := take_some htake
        rcases tell x s with ⟨_ | _, s'⟩
        · rfl
        · exact ih _ s'
    · rfl

/-- A reload registers nothing and drops nothing. -/
theorem domains_reload (c : Configuration) (s : σ) (domain : Option Text)
    (content : Except ConfigurationError Setting) :
    (c.reload tell ofError s domain content).2.1.domains = c.domains := by
  cases content with
  | error f => rfl
  | ok new =>
    cases new with
    | map es => exact domains_takeAll (notify tell) ofError c ([], s) (only domain es)
    | _ => rfl

/-- A name that is taken stays taken. -/
theorem has_call {p : Configuration × σ} (h : p.1.domains.has name = true) (k : Call) :
    (call tell ofError p k).2.1.domains.has name = true := by
  cases k with
  | register n d fallback =>
    show (p.1.register n d fallback).2.domains.has name = true
    cases hn : p.1.domains.has n with
    | true => rw [register_taken hn]; exact h
    | false => rw [register_new hn]; exact (Table.has_put ..).2 (.inr h)
  | validate domain v => exact h
  | reload domain content =>
    show (p.1.reload tell ofError p.2 domain content).2.1.domains.has name = true
    rw [domains_reload]
    exact h

theorem has_run {p : Configuration × σ} (h : p.1.domains.has name = true) (ks : List Call) :
    (run tell ofError p ks).1.domains.has name = true := by
  induction ks generalizing p with
  | nil => exact h
  | cons k ks ih => exact ih (has_call tell ofError h k)

end Run

/-! ## Reloads that stop -/

/-- The entries of a later content in front of `f`, which is looked at, have changed the domains `changes`, and `fs` is
held instead of `es`. -/
structure TakesUpTo (domains : Table Domain) (domain : Option Text) (es new : List (Setting × Setting))
    (f : Setting × Setting) (changes : List Change) (fs : List (Setting × Setting)) : Prop where
  asked : Asked domain f.1
  front : ∃ front back, new = front ++ f :: back ∧ Takes domains domain es front changes fs

namespace TakesUpTo

variable {domains : Table Domain} {e : Setting × Setting} {x : Change}

theorem here (hask : Asked domain f.1) : TakesUpTo domains domain es (f :: new) f [] es :=
  ⟨hask, [], new, rfl, .nil⟩

theorem mem (h : TakesUpTo domains domain es new f changes fs) : f ∈ new := by
  obtain ⟨front, back, rfl, _⟩ := h.front
  simp

theorem skip (h : TakesUpTo domains domain es new f changes fs)
    (hskip : Asked domain e.1 → ∀ x, ¬ Changes domains es e x) :
    TakesUpTo domains domain es (e :: new) f changes fs := by
  obtain ⟨front, back, rfl, htakes⟩ := h.front
  exact ⟨h.asked, e :: front, back, rfl, htakes.skip hskip⟩

theorem take (h : TakesUpTo domains domain (Setting.put es e.1 e.2) new f changes fs)
    (hother : ∀ f ∈ new, Setting.sameScalar e.1 f.1 = false) (hask : Asked domain e.1) (hx : Changes domains es e x) :
    TakesUpTo domains domain es (e :: new) f (x :: changes) fs := by
  obtain ⟨front, back, rfl, htakes⟩ := h.front
  exact ⟨h.asked, e :: front, back, rfl,
    htakes.take (fun f hf => hother f (List.mem_append_left _ hf)) hask hx⟩

end TakesUpTo

section Reload

variable {σ ε : Type} {tell : Change → σ → Except ε Unit × σ} {ofError : ConfigurationError → ε} {s : σ} {err : ε}

/-- Entries that are taken over one after the other stop at one that cannot be compared, or where who is told fails. -/
theorem takeAll_error (hc : c.content = .map es) (hd : Setting.DistinctKeys new)
    (h : (c.takeAll tell ofError s (only domain new)).1 = .error err) :
    ∃ f changes fs, TakesUpTo c.domains domain es new f changes fs ∧
      let told := changes.foldl (fun s x => (tell x s).2) s
      ((sameAsHeld? es f = none ∧ (c.takeAll tell ofError s (only domain new)).2 = (⟨.map fs, c.domains⟩, told)) ∨
        ∃ x, Changes c.domains es f x ∧ (tell x told).1 = .error err ∧
          (c.takeAll tell ofError s (only domain new)).2 =
            (⟨.map (Setting.put fs f.1 f.2), c.domains⟩, (tell x told).2)) := by
  -- the front of the entry where it stops grows by those that are passed over or taken over
  induction new generalizing c es s with
  | nil =>
    rw [only_nil] at h
    exact absurd h (by simp [takeAll])
  | cons e new ih =>
    obtain ⟨hother, hd⟩ := List.pairwise_cons.1 hd
    by_cases hask : Asked domain e.1
    · rw [only_cons_asked hask, takeAll_cons tell ofError hc] at h ⊢
      cases hsame : sameAsHeld? es e with
      | none =>
        rw [take_endless hsame]
        refine ⟨e, [], es, .here hask, .inl ⟨hsame, ?_⟩⟩
        rw [← hc]
        rfl
      | some b =>
        rcases take_cases hsame with ⟨hnone, hno⟩ | ⟨x, hx, htake⟩
        · rw [hnone] at h ⊢
          obtain ⟨f, changes, fs, htakes, hstop⟩ := ih hc hd h
          exact ⟨f, changes, fs, htakes.skip fun _ => hno, hstop⟩
        · rw [htake] at h ⊢
          simp only at h ⊢
          rcases htold : tell x s with ⟨_ | _, s'⟩ <;> rw [htold] at h
          · refine ⟨e, [], es, .here hask, .inr ⟨x, hx, ?_, ?_⟩⟩
            · rw [List.foldl_nil, htold]
              exact h
            · rw [List.foldl_nil, htold]
          · obtain ⟨f, changes, fs, htakes, hstop⟩ :=
              ih (c := { c with content := .map (Setting.put es e.1 e.2) }) rfl hd h
            -- the entry where it stops has another key, so that the same is held under it as before
            have hfind : Setting.find? f.1 (Setting.put es e.1 e.2) = Setting.find? f.1 es :=
              Setting.find?_put_other (hother f htakes.mem) es e.2
            refine ⟨f, x :: changes, fs, htakes.take hother hask hx, ?_⟩
            rw [List.foldl_cons, htold, ← sameAsHeld?_congr hfind]
            rcases hstop with hend | ⟨y, hy, htell⟩
            · exact .inl hend
            · exact .inr ⟨y, (Changes.congr hfind).1 hy, htell⟩
    · rw [only_cons_other hask] at h ⊢
      obtain ⟨f, changes, fs, htakes, hstop⟩ := ih hc hd h
      exact ⟨f, changes, fs, htakes.skip fun h => absurd h hask, hstop⟩

theorem reload_map (c : Configuration) (s : σ) (domain : Option Text) (new : List (Setting × Setting)) :
    c.reload tell ofError s domain (.ok (.map new)) =
      let (r, c, changes, s) := c.takeAll (notify tell) ofError ([], s) (only domain new)
      (r.map fun _ => changes.map Change.domain, c, s) := rfl

/-- A reload that fails at an entry has changed what the entries before it change, and this one, too, if it was told. -/
theorem reload_error (hc : c.content = .map es) (hd : Setting.DistinctKeys new)
    (h : (c.reload tell ofError s domain (.ok (.map new))).1 = .error err) :
    ∃ f changes fs, TakesUpTo c.domains domain es new f changes fs ∧
      let told := (changes.filter Change.listens).foldl (fun s x => (tell x s).2) s
      let p := (c.reload tell ofError s domain (.ok (.map new))).2
      ((sameAsHeld? es f = none ∧ p = (⟨.map fs, c.domains⟩, told)) ∨
        ∃ x, Changes c.domains es f x ∧ x.listens = true ∧ (tell x told).1 = .error err ∧
          p = (⟨.map (Setting.put fs f.1 f.2), c.domains⟩, (tell x told).2)) := by
  rw [reload_map] at h ⊢
  have herror : (c.takeAll (notify tell) ofError ([], s) (only domain new)).1 = .error err := Outcome.map_eq_error.1 h
  obtain ⟨f, changes, fs, htakes, hstop⟩ := takeAll_error hc hd herror
  rw [foldl_notify, List.nil_append] at hstop
  refine ⟨f, changes, fs, htakes, ?_⟩
  rcases hstop with ⟨hnone, hrun⟩ | ⟨x, hx, htell, hrun⟩
  · exact .inl ⟨hnone, by simp only [hrun]⟩
  · cases hl : x.listens with
    | false =>
      rw [notify, hl, if_neg (by simp)] at htell
      exact absurd htell (by simp)
    | true =>
      rw [notify, hl, if_pos rfl] at htell hrun
      exact .inr ⟨x, hx, hl, htell, by simp only [hrun]⟩

theorem reload_other (hc : ∀ es, c.content ≠ .map es) (new : List (Setting × Setting)) :
    (c.reload tell ofError s domain (.ok (.map new))).2 = (c, s) := by
  have hkept : ∀ entries, (c.takeAll (notify tell) ofError ([], s) entries).2 = (c, [], s) := by
    intro entries
    cases entries with
    | nil => rfl
    | cons e entries =>
      rw [takeAll]
      split
      · next es hes => exact absurd hes (hc es)
      · rfl
  rw [reload_map]
  simp only [hkept]

/-! ## Failed calls -/

/-- **What a failed call leaves**, whatever the configuration is: everything as it was, with two exceptions.  A name
that is registered for the first time is taken then, and no later call can register it.  A reload that stops at an entry
has taken over those in front of it, and this one, too, if somebody was told of it. -/
theorem failed_call {k : Call} (hk : k.DistinctKeys) (h : (call tell ofError (c, s) k).1 = .error err) :
    let p := (call tell ofError (c, s) k).2
    p = (c, s) ∨
    (∃ name d fallback, k = .register name d fallback ∧ c.domains.has name = false ∧
      p = (⟨c.content, c.domains.put name d⟩, s) ∧
      ∀ ks d' fallback', let c' := (run tell ofError p ks).1
        c'.register name d' fallback' = (.error (.taken name), c')) ∨
    ∃ domain es new f changes fs, k = .reload domain (.ok (.map new)) ∧ c.content = .map es ∧
      TakesUpTo c.domains domain es new f changes fs ∧
      let told := (changes.filter Change.listens).foldl (fun s x => (tell x s).2) s
      ((sameAsHeld? es f = none ∧ p = (⟨.map fs, c.domains⟩, told)) ∨
        ∃ x, Changes c.domains es f x ∧ x.listens = true ∧ (tell x told).1 = .error err ∧
          p = (⟨.map (Setting.put fs f.1 f.2), c.domains⟩, (tell x told).2)) := by
  intro p
  cases k with
  | register name d fallback =>
    have hp : p = ((c.register name d fallback).2, s) := rfl
    cases hname : c.domains.has name with
    | true => exact .inl (by rw [hp, register_taken hname])
    | false =>
      rw [register_new hname] at hp
      have htaken : p.1.domains.has name = true := by
        rw [hp]
        exact (Table.has_put ..).2 (.inl rfl)
      exact .inr (.inl ⟨name, d, fallback, rfl, hname, hp, fun ks d' fallback' =>
        register_taken (has_run tell ofError htaken ks) d' fallback'⟩)
  | validate domain v => exact .inl rfl
  | reload domain content =>
    rcases content with f | new
    · exact .inl rfl
    · cases new with
      | map new =>
        cases hc : c.content with
        | map es =>
          obtain ⟨f, changes, fs, htakes, hstop⟩ := reload_error hc hk (Outcome.map_eq_error.1 h)
          exact .inr (.inr ⟨domain, es, new, f, changes, fs, rfl, rfl, htakes, hstop⟩)
        | _ => exact .inl (reload_other (fun es hes => by simp [hc] at hes) new)
      | _ => exact .inl rfl

/-- Numbers that are invalid are taken, whatever is done later. -/
theorem failed_call_numbers :
    let c : Configuration := ⟨.map [(.text (.of "numbers"), .list [.text (.of "one")])], []⟩
    let d : Domain := ⟨some (.list .int), false⟩
    ∃ err, (call record id (c, []) (.register (.of "numbers") d none)).1 = .error err ∧
      ∀ ks, let c' := (run record id (⟨c.content, [(.of "numbers", d)]⟩, []) ks).1
        c'.register (.of "numbers") d none = (.error (.taken (.of "numbers")), c') := by
  intro c d
  have herror : (call record id (c, []) (.register (.of "numbers") d none)).1 =
      .error (.invalid ⟨⟨.notInt, [.int 0], false⟩, []⟩) := rfl
  refine ⟨_, herror, fun ks => ?_⟩
  have hkeys : (Call.register (.of "numbers") d none).DistinctKeys := trivial
  rcases failed_call hkeys herror with hkept | ⟨name, d', fallback, hk, _, hp, htaken⟩ | ⟨_, _, _, _, _, _, hk, _⟩
  · have hdomains : [(Text.of "numbers", d)] = [] := congrArg (fun p => p.1.domains) hkept
    exact absurd hdomains (by simp)
  · cases hk
    exact htaken ks d none
  · exact absurd hk (by simp)

/-- A domain whose setting is invalid is registered all the same, and cannot be registered without the schema then. -/
theorem register_invalid_numbers :
    let c : Configuration := ⟨.map [(.text (.of "numbers"), .list [.text (.of "one")])], []⟩
    let first := call record id (c, []) (.register (.of "numbers") ⟨some (.list .int), false⟩ none)
    first.1 = .error (.invalid ⟨⟨.notInt, [.int 0], false⟩, []⟩) ∧ c.domains.has (.of "numbers") = false ∧
      first.2.1.domains.has (.of "numbers") = true ∧ first.2 ≠ (c, []) ∧
      (call record id first.2 (.register (.of "numbers") {} none)).1 = .error (.taken (.of "numbers")) := by
  intro c first
  have hfirst : first.2.1.domains.has (.of "numbers") = true := rfl
  refine ⟨rfl, rfl, hfirst, fun hsame => ?_, rfl⟩
  rw [hsame] at hfirst
  exact absurd hfirst (by decide)

end Reload

end RequestRules.Configuration
