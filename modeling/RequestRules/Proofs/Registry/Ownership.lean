import RequestRules.Proofs.Registry.Context

/-!
# Which contexts drop an item

An item stands under every context in which it has been registered, until it is dropped or rejected, or that context is
dropped (`Registry.mem_namesIn_run`).  A later registration under another context does not take it out of the first.

An item is owned by the context of its last registration.  Dropping the owner drops the item, and dropping any other
context does so exactly if the item stands there too (`Registry.removeContext_run`).
-/

namespace RequestRules

namespace Registry

/-! ## Under a context -/

def Step.Registers (context name : Text) : Step → Prop
  | process c item text => c = context ∧ item.name = name ∧ ∃ t d, text = some t ∧ Descriptor.parse item t = .ok d
  | remove _ | removeContext _ => False

def Step.Delists (context name : Text) : Step → Prop
  | process _ item text => item.name = name ∧ ∃ t e, text = some t ∧ Descriptor.parse item t = .error (.rejected e)
  | remove n => n = name
  | removeContext c => c = context

/-- The item has been registered under the context, and has not been taken out of it since. -/
def Listed (ss : List Step) (context name : Text) : Prop :=
  ∃ before s after, ss = before ++ s :: after ∧ s.Registers context name ∧ ∀ x ∈ after, ¬ x.Delists context name

variable {r : Registry} {context name : Text}

/-- **What a change does to the names under a context.** -/
theorem mem_namesIn_step (r : Registry) (context name : Text) (s : Step) :
    name ∈ (r.step s).namesIn context ↔
      s.Registers context name ∨ (name ∈ r.namesIn context ∧ ¬ s.Delists context name) := by
  cases s with
  | remove n =>
    have hnames : (r.step (.remove n)).namesIn context = (r.namesIn context).filter (· ≠ n) := namesIn_remove r n context
    have hother : name ≠ n ↔ ¬ n = name := ne_comm
    simp [hnames, Step.Registers, Step.Delists, hother]
  | removeContext c =>
    have hnames : (r.step (.removeContext c)).namesIn context = if context = c then [] else r.namesIn context :=
      namesIn_removeContext r c context
    rw [hnames]
    by_cases hc : context = c
    · simp [Step.Registers, Step.Delists, hc]
    · simp [Step.Registers, Step.Delists, hc, Ne.symm hc]
  | process c item text =>
    cases text with
    | none => simp [step, process, Step.Registers, Step.Delists]
    | some t =>
      rcases process_some_cases r c item t with ⟨d, hp, hr⟩ | ⟨e, hp, hr⟩ | ⟨e, hp, hne, hr⟩
      · have hnames : (r.step (.process c item (some t))).namesIn context =
            if context = c then addName (r.namesIn c) item.name else r.namesIn context := by
          rw [step, hr, namesIn_register]
        rw [hnames]
        by_cases hc : context = c
        · subst hc
          simp [mem_addName, Step.Registers, Step.Delists, hp, or_comm, eq_comm]
        · simp [hc, Ne.symm hc, Step.Registers, Step.Delists, hp]
      · have hnames : (r.step (.process c item (some t))).namesIn context =
            (r.namesIn context).filter (· ≠ item.name) := by
          rw [step, hr, namesIn_remove]
        have hother : name ≠ item.name ↔ ¬ item.name = name := ne_comm
        simp [hnames, Step.Registers, Step.Delists, hp, hother]
      · have hsame : r.step (.process c item (some t)) = r := by rw [step, hr]
        simp [hsame, Step.Registers, Step.Delists, hp, hne]

theorem not_listed_nil (context name : Text) : ¬ Listed [] context name := by
  rintro ⟨before, s, after, h, _⟩
  exact absurd h (by simp)

theorem listed_snoc {ss : List Step} {s : Step} :
    Listed (ss ++ [s]) context name ↔ s.Registers context name ∨ (Listed ss context name ∧ ¬ s.Delists context name) :=
  exists_last_snoc

/-- **Where an item stands.**  After a run it is under the contexts in which it has been registered and left. -/
theorem mem_namesIn_run (ss : List Step) (context name : Text) :
    name ∈ (run empty ss).namesIn context ↔ Listed ss context name := by
  induction ss using List.reverseRecOn with
  | nil =>
    have hnone : name ∉ (run empty []).namesIn context := by simp [run, namesIn, empty]
    exact iff_of_false hnone (not_listed_nil context name)
  | append_singleton ss s ih => rw [run_snoc, mem_namesIn_step, ih, listed_snoc]

/-! ## Owners -/

/-- The last text that was accepted for the item was registered under the context, and the item has been left alone
since. -/
def Owned (ss : List Step) (context name : Text) : Prop :=
  ∃ before s after, ss = before ++ s :: after ∧ s.Registers context name ∧
    SparesAll name (run empty (before ++ [s])) after

/-- A change that leaves an item alone leaves it under its contexts. -/
theorem Step.Spares.mem_namesIn {s : Step} (h : s.Spares r name) (hin : name ∈ r.namesIn context) :
    name ∈ (r.step s).namesIn context := by
  refine (mem_namesIn_step r context name s).2 (.inr ⟨hin, fun hs => ?_⟩)
  -- each way to take the item out of the context also drops it
  cases s with
  | process c item text =>
    obtain ⟨hname, t, e, ht, hrejected⟩ := hs
    obtain ⟨e', he', hne⟩ := h hname t ht
    rw [hrejected] at he'
    exact hne e (Except.error.inj he').symm
  | remove n => exact h hs
  | removeContext c =>
    subst hs
    exact h hin

theorem SparesAll.mem_namesIn {ss : List Step} (h : SparesAll name r ss) (hin : name ∈ r.namesIn context) :
    name ∈ (r.run ss).namesIn context := by
  induction ss generalizing r with
  | nil => exact hin
  | cons s ss ih => exact ih h.2 (h.1.mem_namesIn hin)

theorem Owned.mem_namesIn {ss : List Step} (h : Owned ss context name) : name ∈ (run empty ss).namesIn context := by
  obtain ⟨before, s, after, rfl, hs, hall⟩ := h
  have hin : name ∈ (run empty (before ++ [s])).namesIn context := by
    rw [run_snoc, mem_namesIn_step]
    exact .inl hs
  have hrun := hall.mem_namesIn hin
  rwa [← run_append, List.append_assoc] at hrun

theorem Owned.standing {ss : List Step} (h : Owned ss context name) :
    ∃ item text, Standing ss item text ∧ item.name = name := by
  obtain ⟨before, s, after, rfl, hs, hall⟩ := h
  cases s with
  | process c item text =>
    obtain ⟨rfl, rfl, t, d, rfl, hp⟩ := hs
    exact ⟨item, t, ⟨before, c, after, rfl, ⟨d, hp⟩, hall⟩, rfl⟩
  | remove n => exact hs.elim
  | removeContext c => exact hs.elim

theorem Owned.descriptor? {ss : List Step} (h : Owned ss context name) :
    ∃ d, (run empty ss).descriptor? name = some d := by
  obtain ⟨item, text, hst, hname⟩ := h.standing
  obtain ⟨d, hp⟩ : ∃ d, Descriptor.parse item text = .ok d := by
    obtain ⟨_, _, _, _, hok, _⟩ := hst
    exact hok
  exact ⟨d, (descriptor?_run ss name d).2 ⟨item, text, hst, hname, hp⟩⟩

/-- **Which contexts drop an item.**  Its owner does.  Another context does exactly if the item has been registered there
and not been taken out since, although it belongs to its owner by now. -/
theorem removeContext_run (ss : List Step) (owner name : Text) (h : Owned ss owner name) :
    ∃ d, (run empty ss).descriptor? name = some d ∧
      ((run empty ss).removeContext owner).descriptor? name = none ∧
      ∀ other, other ≠ owner →
        (Listed ss other name → ((run empty ss).removeContext other).descriptor? name = none) ∧
        (¬ Listed ss other name → ((run empty ss).removeContext other).descriptor? name = some d) := by
  obtain ⟨d, hd⟩ := h.descriptor?
  refine ⟨d, hd, ?_, fun other _ => ⟨fun hlisted => ?_, fun hlisted => ?_⟩⟩
  · rw [descriptor?_removeContext, if_pos h.mem_namesIn]
  · rw [descriptor?_removeContext, if_pos ((mem_namesIn_run ss other name).2 hlisted)]
  · rw [descriptor?_removeContext, if_neg fun hin => hlisted ((mem_namesIn_run ss other name).1 hin), hd]

section Lamp

def lampOf (name : String) : Item := ⟨.switch, .of name, .of name⟩

def lampRules : Text := .of ">[ON:GET:http://x/on]"

theorem parse_lampRules (name : String) : ∃ d, Descriptor.parse (lampOf name) lampRules = .ok d := by
  have hread : Segment.readAll lampRules =
      .ok [.outbound { command := .of "ON", method := .of "GET", url := .of "http://x/on" }] := by
    decide +kernel
  unfold Descriptor.parse
  rw [hread]
  exact ⟨_, rfl⟩

def enlist (context name : String) : Step := .process (.of context) (lampOf name) (some lampRules)

theorem registers_enlist (context name : String) : (enlist context name).Registers (.of context) (.of name) := by
  obtain ⟨d, hd⟩ := parse_lampRules name
  exact ⟨rfl, rfl, lampRules, d, rfl, hd⟩

/-- A lamp that has come from one context to another, and a third context with another lamp. -/
theorem removeContext_moved_lamp :
    let ss := [enlist "a" "Lamp", enlist "c" "Fan", enlist "b" "Lamp", .remove (.of "Fan")]
    Owned ss (.of "b") (.of "Lamp") ∧ ∃ d, (run empty ss).descriptor? (.of "Lamp") = some d ∧
      ((run empty ss).removeContext (.of "b")).descriptor? (.of "Lamp") = none ∧
      ((run empty ss).removeContext (.of "c")).descriptor? (.of "Lamp") = some d := by
  intro ss
  have hspares : Text.of "Fan" ≠ .of "Lamp" := by decide
  have howned : Owned ss (.of "b") (.of "Lamp") :=
    ⟨[enlist "a" "Lamp", enlist "c" "Fan"], enlist "b" "Lamp", [.remove (.of "Fan")], rfl, registers_enlist "b" "Lamp",
      hspares, trivial⟩
  obtain ⟨d, hd, howner, hother⟩ := removeContext_run ss (.of "b") (.of "Lamp") howned
  have hlisted : ¬ Listed ss (.of "c") (.of "Lamp") := by
    rw [← mem_namesIn_run]
    decide +kernel
  exact ⟨howned, d, hd, howner, (hother (.of "c") (by decide)).2 hlisted⟩

/-- **A former context drops an item too**: an item that has been registered elsewhere since, and even one that another
context has dropped in between. -/
theorem removeContext_former :
    (Owned [enlist "a" "Lamp", enlist "b" "Lamp"] (.of "b") (.of "Lamp") ∧
      ((run empty [enlist "a" "Lamp", enlist "b" "Lamp"]).removeContext (.of "a")).descriptor? (.of "Lamp") = none) ∧
    (Owned [enlist "a" "Lamp", enlist "b" "Lamp", .removeContext (.of "a"), enlist "c" "Lamp"] (.of "c") (.of "Lamp") ∧
      ((run empty [enlist "a" "Lamp", enlist "b" "Lamp", .removeContext (.of "a"), enlist "c" "Lamp"]).removeContext
        (.of "b")).descriptor? (.of "Lamp") = none) := by
  refine ⟨⟨⟨[enlist "a" "Lamp"], _, [], rfl, ?_, trivial⟩, by decide +kernel⟩,
    ⟨[enlist "a" "Lamp", enlist "b" "Lamp", .removeContext (.of "a")], _, [], rfl, ?_, trivial⟩, by decide +kernel⟩
  · exact registers_enlist "b" "Lamp"
  · exact registers_enlist "c" "Lamp"

end Lamp

end Registry

end RequestRules
