import RequestRules.Document
import RequestRules.Proofs.Descriptor.Lookup

/-!
# Which entries last

An entry that is filed takes the place of an earlier one with the same key and goes to the end.  So of all entries that are
given those are left that no later one replaces (`Descriptor.lasting`), as they were given and in that order.

`Descriptor.foldl_put` says it for entries that are filed behind others, and `Descriptor.last_wins` for a descriptor: all
that it is asked comes from the entries that last, and the others might as well not have been given.
-/

namespace RequestRules

namespace Descriptor

/-- The entries behind which no other stands that has the same key. -/
def lasting : List (Key × Request) → List (Key × Request)
  | [] => []
  | e :: es => if ∃ f ∈ es, f.1.Same e.1 then lasting es else e :: lasting es

variable {e : Key × Request} {es : List (Key × Request)}

theorem lasting_replaced (h : ∃ f ∈ es, f.1.Same e.1) : lasting (e :: es) = lasting es := if_pos h

theorem lasting_kept (h : ¬ ∃ f ∈ es, f.1.Same e.1) : lasting (e :: es) = e :: lasting es := if_neg h

/-- **Entries that are filed behind others** replace those of the same keys, and of themselves those last that no later one
replaces. -/
theorem foldl_put (es acc : List (Key × Request)) :
    es.foldl put acc = (acc.filter fun x => ¬ ∃ f ∈ es, f.1.Same x.1) ++ lasting es := by
  induction es generalizing acc with
  | nil => simp [lasting]
  | cons e es ih =>
    have hothers : (without e.1 acc).filter (fun x => ¬ ∃ f ∈ es, f.1.Same x.1) =
        acc.filter fun x => ¬ ∃ f ∈ e :: es, f.1.Same x.1 := by
      unfold without
      rw [List.filter_filter]
      refine List.filter_congr fun x _ => ?_
      have hsymm : x.1.Same e.1 ↔ e.1.Same x.1 := ⟨Key.Same.symm, Key.Same.symm⟩
      rw [← Bool.decide_and, decide_eq_decide, hsymm, List.exists_mem_cons_iff, not_or, and_comm]
    have hitself : [e].filter (fun x => ¬ ∃ f ∈ es, f.1.Same x.1) ++ lasting es = lasting (e :: es) := by
      by_cases h : ∃ f ∈ es, f.1.Same e.1
      · rw [lasting_replaced h, List.filter_singleton, decide_eq_false (not_not_intro h)]
        rfl
      · rw [lasting_kept h, List.filter_singleton, decide_eq_true h]
        rfl
    rw [List.foldl_cons, ih, put, List.filter_append, hothers, List.append_assoc, hitself]

theorem entries_ofEntries (item : Text) (states : List ValueKind) (es : List (Key × Request)) :
    (ofEntries item states es).entries = lasting es := foldl_put es []

/-- Entries with different keys all last. -/
theorem lasting_of_distinct (h : Distinct es) : lasting es = es := by
  induction es with
  | nil => rfl
  | cons e es ih =>
    obtain ⟨he, hes⟩ := List.pairwise_cons.1 h
    have hnone : ¬ ∃ f ∈ es, f.1.Same e.1 := fun ⟨f, hf, hsame⟩ => he f hf hsame.symm
    rw [lasting_kept hnone, ih hes]

/-- What has been filed can be filed again, all of it, and nothing changes. -/
theorem ofEntries_entries (item : Text) (states : List ValueKind) (es : List (Key × Request)) :
    ofEntries item states (ofEntries item states es).entries = ofEntries item states es := by
  have hentries : (ofEntries item states (ofEntries item states es).entries).entries =
      (ofEntries item states es).entries := by
    rw [entries_ofEntries, lasting_of_distinct (distinct_ofEntries item states es)]
  exact congrArg (Descriptor.mk item states) hentries

theorem ofEntries_append (item : Text) (states : List ValueKind) (es fs : List (Key × Request)) :
    ofEntries item states (es ++ fs) = ofEntries item states ((ofEntries item states es).entries ++ fs) := by
  have hfiled : (ofEntries item states es).entries.foldl put [] = es.foldl put [] :=
    congrArg Descriptor.entries (ofEntries_entries item states es)
  unfold ofEntries at hfiled ⊢
  rw [List.foldl_append, List.foldl_append, hfiled]

/-- The request under a key is that of the one entry that lasts and has the key. -/
theorem get?_eq_some_iff (item : Text) (states : List ValueKind) (es : List (Key × Request)) (k : Key) (r : Request) :
    (ofEntries item states es).get? k = some r ↔ ∃ e ∈ lasting es, e.1.Same k ∧ e.2 = r := by
  have hdistinct := distinct_ofEntries item states es
  rw [← entries_ofEntries item states es]
  constructor
  · intro h
    obtain ⟨e, he, rfl⟩ := Option.map_eq_some_iff.1 h
    exact ⟨e, List.mem_of_find?_eq_some he, by simpa using List.find?_some he, rfl⟩
  · rintro ⟨e, he, hsame, rfl⟩
    rw [← get?_congr hsame]
    exact get?_of_mem hdistinct he

/-- **The last entry with a key wins**, and takes the last place.  A descriptor goes through exactly the entries that no
later one replaces, in the order in which they were given, each with its own writing of the key; so does its plain form.
It has a key, and a request under it, exactly if one of them does.  And what is given first can be filed first. -/
theorem last_wins (item : Text) (states : List ValueKind) (es : List (Key × Request)) :
    let d := ofEntries item states es
    d.entries = lasting es ∧
      d.keys = (lasting es).map (·.1) ∧
      (∀ k, d.contains k = true ↔ ∃ e ∈ lasting es, e.1.Same k) ∧
      (∀ k r, d.get? k = some r ↔ ∃ e ∈ lasting es, e.1.Same k ∧ e.2 = r) ∧
      d.plain = .object [
        (.of "item", .text item),
        (.of "accepted_data_types", ValueKind.plainList states),
        (.of "elements", .list ((lasting es).map plainEntry))] ∧
      ∀ fs, ofEntries item states (es ++ fs) = ofEntries item states (d.entries ++ fs) := by
  intro d
  have hentries : d.entries = lasting es := entries_ofEntries item states es
  refine ⟨hentries, ?_, fun k => ?_, fun k r => get?_eq_some_iff item states es k r, ?_,
    fun fs => ofEntries_append item states es fs⟩
  · rw [keys, hentries]
  · rw [contains, Option.isSome_iff_exists]
    constructor
    · rintro ⟨r, hr⟩
      obtain ⟨e, he, hsame, _⟩ := (get?_eq_some_iff item states es k r).1 hr
      exact ⟨e, he, hsame⟩
    · rintro ⟨e, he, hsame⟩
      exact ⟨e.2, (get?_eq_some_iff item states es k e.2).2 ⟨e, he, hsame, rfl⟩⟩
  · rw [plain, hentries]
    rfl

/-- Half open is given twice, and so is an instant: the later writings last. -/
example :
    let instant (d : Date) (hour : Nat) (offset : Int) : Key := .command (.dateTime ⟨d, hour, 0, 0, 0, some offset⟩)
    let request (url : String) : Request := ⟨.of url, some (.of "PUT"), [], 0, none, none⟩
    lasting [(.command (.percent ⟨false, 50, 0⟩), request "a"), (instant ⟨2021, 1, 3⟩ 23 0, request "b"),
      (.wildcard, request "c"), (.command (.percent ⟨false, 5, 1⟩), request "d"),
      (instant ⟨2021, 1, 4⟩ 1 7200000000, request "e")] =
      [(.wildcard, request "c"), (.command (.percent ⟨false, 5, 1⟩), request "d"),
      (instant ⟨2021, 1, 4⟩ 1 7200000000, request "e")] := by
  decide +kernel

end Descriptor

end RequestRules
