import Mathlib.Data.List.Induction
import RequestRules.Registry

/-!
# Runs of a registry

`Registry.run` does any number of changes, one after the other.  `Registry.step_cases` says once what a change can do to
an item, and `Registry.descriptor?_run` from it where the descriptor of an item comes from: from the last text that was
accepted for the item, if the item has been left alone since.
-/

namespace RequestRules

/-- Something has happened that counts, and nothing since that undoes it: that is the last thing that has happened, or it
undoes nothing and something before it counts. -/
theorem exists_last_snoc {α : Type} {counts undoes : α → Prop} {xs : List α} {x : α} :
    (∃ before y after, xs ++ [x] = before ++ y :: after ∧ counts y ∧ ∀ z ∈ after, ¬ undoes z) ↔
      counts x ∨ ((∃ before y after, xs = before ++ y :: after ∧ counts y ∧ ∀ z ∈ after, ¬ undoes z) ∧ ¬ undoes x) := by
  constructor
  · rintro ⟨before, y, after, heq, hy, hall⟩
    rcases List.eq_nil_or_concat after with rfl | ⟨after, z, rfl⟩
    · obtain ⟨rfl, hs⟩ := List.append_inj' heq rfl
      cases hs
      exact .inl hy
    · right
      rw [List.concat_eq_append, ← List.cons_append, ← List.append_assoc] at heq
      obtain ⟨rfl, hs⟩ := List.append_inj' heq rfl
      cases hs
      rw [List.concat_eq_append] at hall
      refine ⟨⟨before, y, after, rfl, hy, fun z hz => ?_⟩, ?_⟩
      · exact hall z (List.mem_append_left _ hz)
      · exact hall x (by simp)
  · rintro (hx | ⟨⟨before, y, after, rfl, hy, hall⟩, hx⟩)
    · exact ⟨xs, x, [], rfl, hx, by simp⟩
    · refine ⟨before, y, after ++ [x], by simp, hy, fun z hz => ?_⟩
      rcases List.mem_append.1 hz with hz | hz
      · exact hall z hz
      · rw [List.mem_singleton.1 hz]
        exact hx

/-- Something that holds of an element of a list holds of a last one. -/
theorem exists_last {α : Type} {p : α → Prop} {xs : List α} (h : ∃ x ∈ xs, p x) :
    ∃ before x after, xs = before ++ x :: after ∧ p x ∧ ∀ y ∈ after, ¬ p y := by
  induction xs using List.reverseRecOn with
  | nil => exact absurd h (by simp)
  | append_singleton xs x ih =>
    rw [exists_last_snoc]
    by_cases hx : p x
    · exact .inl hx
    · obtain ⟨y, hy, hp⟩ := h
      rcases List.mem_append.1 hy with hy | hy
      · exact .inr ⟨ih ⟨y, hy, hp⟩, hx⟩
      · exact absurd (List.mem_singleton.1 hy ▸ hp) hx

namespace Registry

/-! ## Changes -/

/-- A change of a registry. -/
inductive Step
  | process (context : Text) (item : Item) (text : Option Text)
  | remove (name : Text)
  | removeContext (context : Text)
  deriving DecidableEq, Repr

/-- The registry after a change, whether it was refused or not. -/
def step (r : Registry) : Step → Registry
  | .process context item text => (r.process context item text).2
  | .remove name => r.remove name
  | .removeContext context => r.removeContext context

def run (r : Registry) (ss : List Step) : Registry := ss.foldl step r

def namesIn (r : Registry) (context : Text) : List Text := (r.contexts.get? context).getD []

/-- The change leaves the item alone: it neither registers nor rejects rules of the item, nor drops it. -/
def Step.Spares (r : Registry) (name : Text) : Step → Prop
  | process _ item text => item.name = name → ∀ t, text = some t →
      ∃ e, Descriptor.parse item t = .error e ∧ ∀ x, e ≠ .rejected x
  | remove n => n ≠ name
  | removeContext context => name ∉ r.namesIn context

def SparesAll (name : Text) : Registry → List Step → Prop
  | _, [] => True
  | r, s :: ss => s.Spares r name ∧ SparesAll name (r.step s) ss

/-- In a run from the empty registry the text was accepted for the item, which has been left alone since. -/
def Standing (ss : List Step) (item : Item) (text : Text) : Prop :=
  ∃ before context after, ss = before ++ .process context item (some text) :: after ∧
    (∃ d, Descriptor.parse item text = .ok d) ∧
    SparesAll item.name (run empty (before ++ [.process context item (some text)])) after

variable {r : Registry} {name : Text}

theorem run_append (r : Registry) (ss ts : List Step) : r.run (ss ++ ts) = (r.run ss).run ts := List.foldl_append

theorem run_snoc (r : Registry) (ss : List Step) (s : Step) : r.run (ss ++ [s]) = (r.run ss).step s := run_append r ss [s]

theorem sparesAll_append {ss ts : List Step} :
    SparesAll name r (ss ++ ts) ↔ SparesAll name r ss ∧ SparesAll name (r.run ss) ts := by
  induction ss generalizing r with
  | nil =>
    show SparesAll name r ts ↔ True ∧ SparesAll name r ts
    rw [true_and]
  | cons s ss ih =>
    show _ ∧ SparesAll name (r.step s) (ss ++ ts) ↔ (_ ∧ SparesAll name (r.step s) ss) ∧ SparesAll name ((r.step s).run ss) ts
    rw [ih, and_assoc]

/-! ## What a change does to an item -/

theorem descriptor?_remove (r : Registry) (n name : Text) :
    (r.remove n).descriptor? name = if name = n then none else r.descriptor? name := Table.get?_erase ..

theorem descriptor?_removeContext (r : Registry) (context name : Text) :
    (r.removeContext context).descriptor? name = if name ∈ r.namesIn context then none else r.descriptor? name :=
  Table.get?_foldl_erase ..

theorem descriptor?_register (r : Registry) (context n name : Text) (d : Descriptor) :
    (r.register context n d).descriptor? name = if name = n then some d else r.descriptor? name := Table.get?_put ..

/-- **What reading a text does to a registry.**  It registers the descriptor, drops the item, or changes nothing. -/
theorem process_some_cases (r : Registry) (context : Text) (item : Item) (text : Text) :
    (∃ d, Descriptor.parse item text = .ok d ∧
      r.process context item (some text) = (.ok (some d), r.register context item.name d)) ∨
    (∃ e, Descriptor.parse item text = .error (.rejected e) ∧
      r.process context item (some text) = (.error (.rejected e), r.remove item.name)) ∨
    (∃ e, Descriptor.parse item text = .error e ∧ (∀ x, e ≠ .rejected x) ∧
      r.process context item (some text) = (.error e, r)) := by
  cases hp : Descriptor.parse item text with
  | ok d => exact .inl ⟨d, rfl, by simp only [process, hp]⟩
  | error e =>
    right
    cases e with
    | rejected x => exact .inl ⟨x, rfl, by simp only [process, hp]⟩
    | longInterval n => exact .inr ⟨_, rfl, by simp, by simp only [process, hp]⟩
    | bothGiven => exact .inr ⟨_, rfl, by simp, by simp only [process, hp]⟩

theorem process_cases (r : Registry) (context : Text) (item : Item) (text : Option Text) :
    (∃ d, (r.process context item text).2 = r.register context item.name d) ∨
      (r.process context item text).2 = r.remove item.name ∨ (r.process context item text).2 = r := by
  cases text with
  | none => exact .inr (.inr rfl)
  | some t =>
    rcases process_some_cases r context item t with ⟨d, _, h⟩ | ⟨e, _, h⟩ | ⟨e, _, _, h⟩ <;> rw [h]
    · exact .inl ⟨d, rfl⟩
    · exact .inr (.inl rfl)
    · exact .inr (.inr rfl)

/-- **What a change does to an item.**  It leaves the item alone, it registers a descriptor, or the item has none
afterwards. -/
theorem step_cases (r : Registry) (name : Text) (s : Step) :
    (s.Spares r name ∧ (r.step s).descriptor? name = r.descriptor? name) ∨
    (∃ context item text d, s = .process context item (some text) ∧ item.name = name ∧
      Descriptor.parse item text = .ok d ∧ (r.step s).descriptor? name = some d) ∨
    (¬ s.Spares r name ∧ (r.step s).descriptor? name = none) := by
  cases s with
  | remove n =>
    have hd := descriptor?_remove r n name
    by_cases h : name = n
    · right; right
      exact ⟨fun hs => hs h.symm, by rw [step, hd, if_pos h]⟩
    · left
      exact ⟨fun he => h he.symm, by rw [step, hd, if_neg h]⟩
  | removeContext context =>
    have hd := descriptor?_removeContext r context name
    by_cases h : name ∈ r.namesIn context
    · right; right
      exact ⟨fun hs => hs h, by rw [step, hd, if_pos h]⟩
    · left
      exact ⟨h, by rw [step, hd, if_neg h]⟩
  | process context item text =>
    cases text with
    | none =>
      left
      exact ⟨fun _ t ht => absurd ht (by simp), rfl⟩
    | some t =>
      rcases process_some_cases r context item t with ⟨d, hp, hr⟩ | ⟨e, hp, hr⟩ | ⟨e, hp, hne, hr⟩
      · have hd := descriptor?_register r context item.name name d
        by_cases h : item.name = name
        · right; left
          exact ⟨context, item, t, d, rfl, h, hp, by rw [step, hr, hd, if_pos h.symm]⟩
        · left
          exact ⟨fun he => absurd he h, by rw [step, hr, hd, if_neg (Ne.symm h)]⟩
      · have hd := descriptor?_remove r item.name name
        by_cases h : item.name = name
        · right; right
          refine ⟨fun hs => ?_, by rw [step, hr, hd, if_pos h.symm]⟩
          obtain ⟨e', hp', hne⟩ := hs h t rfl
          rw [hp] at hp'
          exact hne e (Except.error.inj hp').symm
        · left
          exact ⟨fun hn => absurd hn h, by rw [step, hr, hd, if_neg (Ne.symm h)]⟩
      · left
        refine ⟨fun _ t' ht => ?_, by rw [step, hr]⟩
        cases ht
        exact ⟨e, hp, hne⟩

/-! ## Runs -/

theorem Step.Spares.descriptor? {s : Step} (h : s.Spares r name) : (r.step s).descriptor? name = r.descriptor? name := by
  rcases step_cases r name s with ⟨_, hd⟩ | ⟨context, item, text, d, rfl, hname, hp, _⟩ | ⟨hn, _⟩
  · exact hd
  · obtain ⟨e, he, _⟩ := h hname text rfl
    rw [hp] at he
    exact absurd he (by simp)
  · exact absurd h hn

theorem SparesAll.descriptor? {ss : List Step} (h : SparesAll name r ss) :
    (r.run ss).descriptor? name = r.descriptor? name := by
  induction ss generalizing r with
  | nil => rfl
  | cons s ss ih => exact (ih h.2).trans h.1.descriptor?

theorem Standing.snoc {ss : List Step} {s : Step} {item : Item} {text : Text} (h : Standing ss item text)
    (hs : s.Spares (run empty ss) item.name) : Standing (ss ++ [s]) item text := by
  obtain ⟨before, context, after, rfl, hok, hall⟩ := h
  refine ⟨before, context, after ++ [s], by simp, hok, sparesAll_append.2 ⟨hall, ?_, trivial⟩⟩
  rw [← run_append, List.append_assoc]
  exact hs

/-- **Where descriptors come from.**  An item has a descriptor exactly if a text for it stands. -/
theorem descriptor?_run (ss : List Step) (name : Text) (d : Descriptor) :
    (run empty ss).descriptor? name = some d ↔
      ∃ item text, Standing ss item text ∧ item.name = name ∧ Descriptor.parse item text = .ok d := by
  constructor
  · -- the last change has left the item alone, or has registered the descriptor
    induction ss using List.reverseRecOn with
    | nil =>
      intro h
      exact absurd h (by simp [run, empty, Registry.descriptor?])
    | append_singleton ss s ih =>
      intro h
      rw [run_snoc] at h
      rcases step_cases (run empty ss) name s with ⟨hs, hd⟩ | ⟨context, item, text, d', rfl, hname, hp, hd⟩ | ⟨_, hd⟩
      · obtain ⟨item, text, hst, hname, hp⟩ := ih (hd ▸ h)
        refine ⟨item, text, hst.snoc ?_, hname, hp⟩
        rwa [hname]
      · rw [hd] at h
        cases h
        exact ⟨item, text, ⟨ss, context, [], rfl, ⟨d, hp⟩, trivial⟩, hname, hp⟩
      · rw [hd] at h
        exact absurd h (by simp)
  · rintro ⟨item, text, ⟨before, context, after, rfl, _, hall⟩, rfl, hp⟩
    have hstep : (run empty (before ++ [.process context item (some text)])).descriptor? item.name = some d := by
      have hprocess : (run empty before).process context item (some text) =
          (.ok (some d), (run empty before).register context item.name d) := by simp only [process, hp]
      rw [run_snoc, step, hprocess, descriptor?_register, if_pos rfl]
    have hrun := hall.descriptor?
    rw [← run_append, List.append_assoc] at hrun
    exact hrun.trans hstep

end Registry

end RequestRules
