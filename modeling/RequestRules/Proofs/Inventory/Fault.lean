import RequestRules.Proofs.Inventory.Order
import RequestRules.Proofs.Rejection

/-!
# What goes wrong with valid entries

The schema looks at all that loading needs (`Inventory.hasRules_of_check`), so that adding an entry fails in one case only:
an interval in its rules has too many digits (`Inventory.add_short`).  The first entry of that kind ends the loading
(`Inventory.addAll_firstIsLong`), and if there is none, all entries are loaded (`Inventory.addAll_short`).

`Inventory.schema_suffices` puts schema and loading together.
-/

namespace RequestRules

namespace Entry

def HasRules (e : Setting) : Prop :=
  read e = .ok .disabled ∨ ∃ item t, read e = .ok (.enabled item (.ok (some t)))

/-- The entry is enabled, and the first fault in its rules is an interval of `n` digits, which are too many. -/
def IsLong (n : Nat) (e : Setting) : Prop :=
  ∃ item t, read e = .ok (.enabled item (.ok (some t))) ∧ Segment.FirstFaultIsLong t n

end Entry

namespace Inventory

variable {v : Inventory} {e : Setting} {entries : List Setting} {n : Nat}

/-- The entries that the schema lets through have rules. -/
theorem hasRules_of_check {s : Setting} (h : schema.check s = .ok (.list entries)) : ∀ e ∈ entries, Entry.HasRules e := by
  intro e he
  obtain ⟨fields, type, name, rules, isEnabled, rfl, hv⟩ := valid_of_mem h he
  cases isEnabled with
  | false => exact .inl hv.read_eq
  | true => exact .inr ⟨_, rules, hv.read_eq⟩

/-- Only an error that is no rejection comes out. -/
theorem fst_add_enabled {item : Item} {t : Text} (hread : Entry.read e = .ok (.enabled item (.ok (some t))))
    (v : Inventory) : (v.add e).1 = match Descriptor.parse item t with
      | .ok _ | .error (.rejected _) => .ok ()
      | .error x => .error (.descriptor x) := by
  rcases add_cases v e with ⟨x, h, _⟩ | ⟨h, _⟩ | ⟨i, x, errors, h, _, _⟩ | ⟨i, rs, w, h, _, hadd⟩ <;>
    cases hread.symm.trans h
  rw [hadd]
  rcases register_cases w context item (some t) with ⟨hnone, _⟩ | ⟨t', d, ht, hp, hr⟩ | ⟨t', r, ht, hp, hr⟩ |
    ⟨t', x, ht, hp, hx, hr⟩
  · exact absurd hnone (by simp)
  · cases ht
    rw [hr, hp]
    rfl
  · cases ht
    rw [hr, hp]
    rfl
  · cases ht
    rw [hr, hp]
    cases x with
    | rejected r => exact absurd rfl (hx r)
    | _ => rfl

theorem add_long (h : Entry.IsLong n e) (v : Inventory) : (v.add e).1 = .error (.descriptor (.longInterval n)) := by
  obtain ⟨item, t, hread, hfault⟩ := h
  rw [fst_add_enabled hread, Descriptor.parse_longInterval.2 hfault]

/-- Adding an entry with rules fails for an interval of too many digits only. -/
theorem add_short (h : Entry.HasRules e) (hshort : ∀ n, ¬ Entry.IsLong n e) (v : Inventory) : (v.add e).1 = .ok () := by
  rcases h with hread | ⟨item, t, hread⟩
  · rw [add_disabled hread]
  · rw [fst_add_enabled hread]
    cases hparse : Descriptor.parse item t with
    | ok d => rfl
    | error x =>
      rcases Descriptor.parse_error hparse with ⟨e', _, rfl⟩ | ⟨c, rfl⟩
      · cases e' with
        | grammar g => rfl
        | longInterval n => exact absurd ⟨item, t, hread, Descriptor.parse_longInterval.1 hparse⟩ (hshort n)
      · rfl

/-- The first entry that cannot be added has an interval of `n` digits, which are too many. -/
def FirstIsLong (n : Nat) (entries : List Setting) : Prop :=
  ∃ before e after, entries = before ++ e :: after ∧ (∀ f ∈ before, ∀ m, ¬ Entry.IsLong m f) ∧ Entry.IsLong n e

theorem firstIsLong_or_short (entries : List Setting) :
    (∃ n, FirstIsLong n entries) ∨ ∀ e ∈ entries, ∀ n, ¬ Entry.IsLong n e := by
  induction entries with
  | nil => exact .inr (by simp)
  | cons e entries ih =>
    by_cases he : ∃ n, Entry.IsLong n e
    · obtain ⟨n, hn⟩ := he
      exact .inl ⟨n, [], e, entries, rfl, by simp, hn⟩
    · have hshort : ∀ n, ¬ Entry.IsLong n e := fun n hn => he ⟨n, hn⟩
      rcases ih with ⟨n, before, f, after, rfl, hbefore, hf⟩ | hall
      · exact .inl ⟨n, e :: before, f, after, rfl, List.forall_mem_cons.2 ⟨hshort, hbefore⟩, hf⟩
      · exact .inr (List.forall_mem_cons.2 ⟨hshort, hall⟩)

theorem addAll_short (h : ∀ e ∈ entries, Entry.HasRules e) (hshort : ∀ e ∈ entries, ∀ n, ¬ Entry.IsLong n e) :
    (v.addAll entries).1 = .ok () :=
  addAll_eq_ok.2 fun e he => add_short (h e he) (hshort e he) {}

theorem addAll_firstIsLong (h : ∀ e ∈ entries, Entry.HasRules e) (hlong : FirstIsLong n entries) :
    (v.addAll entries).1 = .error (.descriptor (.longInterval n)) := by
  obtain ⟨before, e, after, rfl, hbefore, he⟩ := hlong
  induction before generalizing v with
  | nil =>
    have hadd := add_long he v
    rw [List.nil_append, addAll_cons]
    rcases hr : v.add e with ⟨_ | _, w⟩ <;> rw [hr] at hadd
    · exact hadd
    · exact absurd hadd (by simp)
  | cons f before ih =>
    obtain ⟨hf, hbefore⟩ := List.forall_mem_cons.1 hbefore
    have hadd := add_short (h f (by simp)) hf v
    rw [List.cons_append, addAll_cons]
    rcases hr : v.add f with ⟨_ | _, w⟩ <;> rw [hr] at hadd
    · exact absurd hadd (by simp)
    · exact ih (fun e he => h e (List.mem_cons_of_mem _ he)) hbefore

/-- **The schema suffices.**  It lets through exactly the lists of maps that have a text for a name, one of the types, and a
text for rules each, and a text for a label and a truth value for whether they are enabled if they say so; there may be
other keys.  What comes out is the same list, but for the entries that do not say whether they are enabled, which are.  It
is let through again as it is, and it is loaded into any inventory unless an interval has too many digits: no field is
missing, no value is of the wrong sort, and no type is unknown. -/
theorem schema_suffices (v : Setting) :
    (∀ w, schema.check v = .ok w ↔ ∃ ess : List (List (Setting × Setting)), v = .list (ess.map .map) ∧
      (∀ es ∈ ess, Entry.Accepted es) ∧ w = .list (ess.map fun es => .map (Entry.completed es))) ∧
    ∀ w, schema.check v = .ok w → schema.check w = .ok w ∧ ∀ inventory : Inventory,
      (inventory.load w).1 = .ok () ∨
        ∃ entries n, w = .list entries ∧ FirstIsLong n entries ∧
          (inventory.load w).1 = .error (.descriptor (.longInterval n)) := by
  refine ⟨fun w => ?_, fun w h => ⟨Schema.check_again h, fun inventory => ?_⟩⟩
  · simp only [check_eq_ok, filled_eq_completed]
    exact exists_congr fun ess => and_congr_right fun _ => and_comm
  · obtain ⟨ess, _, rfl, _⟩ := check_eq_ok.1 h
    have hrules := hasRules_of_check h
    rcases firstIsLong_or_short (ess.map fun es => .map (filled es)) with ⟨n, hlong⟩ | hshort
    · exact .inr ⟨_, n, rfl, hlong, addAll_firstIsLong hrules hlong⟩
    · exact .inl (addAll_short hrules hshort)

end Inventory

end RequestRules
