import Mathlib.Data.List.Find
import RequestRules.Proofs.Descriptor.WellFormed
import RequestRules.Proofs.Value.Meaning

/-!
# Looking up by meaning

A descriptor asks its keys whether they are the same and never how they are written.  So keys that denote the same thing
get one answer, and a descriptor holds one of them at most (`Descriptor.lookup_by_meaning`).
-/

namespace RequestRules

namespace Key

/-- The key is a mark, or a value that is read from some text. -/
def Readable : Key → Prop
  | changed | wildcard | inbound => True
  | command v => ∃ t, Value.read v.kind t = .ok v

/-- What a key denotes: a mark stands for itself, a command for what its value denotes as one of its kind. -/
def meaning : Key → Key ⊕ ValueKind × Meaning
  | command v => .inr (v.kind, v.meaning)
  | mark => .inl mark

theorem same_iff {k l : Key} (hk : k.Readable) (hl : l.Readable) : k.Same l ↔ k.meaning = l.meaning := by
  cases k <;> cases l <;> simp only [Same, meaning, Sum.inl.injEq, reduceCtorEq]
  case command.command v w =>
    rw [Value.same_iff (Value.valid_iff.2 hk) (Value.valid_iff.2 hl), Sum.inr.injEq, Prod.mk.injEq]

end Key

namespace Descriptor

variable {k l : Key}

/-- One key in two writings finds one entry. -/
theorem get?_congr (h : k.Same l) (d : Descriptor) : d.get? k = d.get? l := by
  have hfind : (fun e : Key × Request => decide (e.1.Same k)) = fun e => decide (e.1.Same l) := by
    funext e
    exact decide_eq_decide.2 ⟨fun he => he.trans h, fun he => he.trans h.symm⟩
  unfold get?
  rw [hfind]

theorem resolve_congr (h : k.Same l) (d : Descriptor) : d.resolve k = d.resolve l := by
  have hget := get?_congr h d
  unfold resolve
  rw [hget]
  cases d.get? l with
  | some r => rfl
  | none =>
    -- two keys that are the same both fall back to the wildcard, or neither does
    cases k <;> cases l <;> first | rfl | exact absurd h id

/-- What a key finds is what was given last for the thing that it denotes. -/
theorem get?_eq_last (item : Text) (states : List ValueKind) {es : List (Key × Request)} (hes : ∀ e ∈ es, e.1.Readable)
    (hk : k.Readable) :
    (ofEntries item states es).get? k = (es.reverse.find? fun e => e.1.meaning = k.meaning).map (·.2) := by
  have hsame : ∀ e ∈ es.reverse, decide (e.1.Same k) = decide (e.1.meaning = k.meaning) := fun e he =>
    decide_eq_decide.2 (Key.same_iff (hes e (List.mem_reverse.1 he)) hk)
  rw [get?_ofEntries, List.find?_congr hsame]

/-- No two entries have keys that denote the same thing. -/
theorem nodup_meanings {es : List (Key × Request)} (h : Distinct es) (hes : ∀ e ∈ es, e.1.Readable) :
    (es.map fun e => e.1.meaning).Nodup := by
  unfold List.Nodup
  rw [List.pairwise_map]
  refine h.imp_of_mem fun he hf hne heq => hne ?_
  exact (Key.same_iff (hes _ he) (hes _ hf)).2 heq

/-- **Lookup works on what values denote.**  Values that are read are the same exactly if they are of one kind and denote
the same thing, which is an equivalence and never holds between a command and a mark; a descriptor holds one key at most
for each thing that keys denote, a key finds what was given last for the thing that it denotes, and all keys that are the
same get one answer. -/
theorem lookup_by_meaning (item : Text) (states : List ValueKind) {es : List (Key × Request)}
    (hes : ∀ e ∈ es, e.1.Readable) :
    let d := ofEntries item states es
    (∀ (v w : Value) (s t : Text), Value.read v.kind s = .ok v → Value.read w.kind t = .ok w →
      (v.Same w ↔ v.kind = w.kind ∧ v.meaning = w.meaning)) ∧
    Equivalence Value.Same ∧
    (∀ v : Value, ∀ mark ∈ [Key.changed, Key.wildcard, Key.inbound],
      ¬ (Key.command v).Same mark ∧ ¬ mark.Same (Key.command v)) ∧
    (d.entries.map fun e => e.1.meaning).Nodup ∧
    (∀ k : Key, k.Readable → d.get? k = (es.reverse.find? fun e => e.1.meaning = k.meaning).map (·.2)) ∧
    ∀ k l : Key, k.Same l → d.get? k = d.get? l ∧ d.contains k = d.contains l ∧ d.resolve k = d.resolve l := by
  intro d
  have hreadable : ∀ e ∈ d.entries, e.1.Readable := fun e he => hes e (mem_of_mem_ofEntries he)
  refine ⟨fun v w s t hv hw => Value.same_iff (Value.valid_of_read hv) (Value.valid_of_read hw),
    ⟨Value.Same.refl, Value.Same.symm, Value.Same.trans⟩, fun v mark hmark => ?_,
    nodup_meanings (distinct_ofEntries item states es) hreadable, fun k hk => get?_eq_last item states hes hk,
    fun k l h => ⟨get?_congr h d, ?_, resolve_congr h d⟩⟩
  · simp only [List.mem_cons, List.not_mem_nil, or_false] at hmark
    rcases hmark with rfl | rfl | rfl <;> exact ⟨id, id⟩
  · unfold contains
    rw [get?_congr h]

/-- A shutter with one rule for half open, given twice in different writings, and one for an instant; each is found in a
third writing. -/
theorem lookup_by_meaning_shutter :
    let half := Key.command (.percent ⟨false, 5, 1⟩)
    let first := Key.command (.dateTime ⟨⟨1, 1, 1⟩, 0, 30, 0, 0, some 3600000000⟩)
    let request (url : String) : Request := ⟨.of url, some (.of "PUT"), [], 0, none, none⟩
    let d := ofEntries (.of "Shutter") [.percent]
      [(.command (.percent ⟨false, 50, 0⟩), request "a"), (first, request "b"), (half, request "c")]
    (d.entries.map fun e => e.1.meaning).Nodup ∧ d.keys = [first, half] ∧
      d.get? (.command (.percent ⟨false, 500, -1⟩)) = d.get? half ∧ d.get? half = some (request "c") ∧
      d.resolve (.command (.dateTime ⟨⟨1, 1, 1⟩, 23, 29, 0, 0, some 86340000000⟩)) = d.resolve first := by
  intro half first request d
  have hentries : ∀ e ∈ [(Key.command (.percent ⟨false, 50, 0⟩), request "a"), (first, request "b"), (half, request "c")],
      e.1.Readable := by
    intro e he
    simp only [List.mem_cons, List.not_mem_nil, or_false] at he
    rcases he with rfl | rfl | rfl
    · exact ⟨.of "50", by decide +kernel⟩
    · exact ⟨.of "0001-01-01T00:30+01:00", by decide +kernel⟩
    · exact ⟨.of "5E1", by decide +kernel⟩
  obtain ⟨_, _, _, hnodup, _, hlookup⟩ := lookup_by_meaning (.of "Shutter") [.percent] hentries
  exact ⟨hnodup, by decide +kernel, (hlookup _ half (by decide +kernel)).1, by decide +kernel,
    (hlookup _ first (by decide +kernel)).2.2⟩

end Descriptor

end RequestRules
