import RequestRules.Proofs.Text
import RequestRules.Proofs.Value

/-!
# Kinds that are told apart by their texts

Values are read for the first of several kinds that accepts the text, so the order of the kinds could matter.  It does not
if no text is read for two of them (`Value.Exclusive`): then the kind is found that reads the text, wherever it stands
(`Value.readAny?_eq_some_iff`).

`ValueKind.apart` decides which kinds are told apart, and `Value.exclusive_of_apart` says why they are: a word is no
number, date or color, and only colors have commas.
-/

namespace RequestRules

/-- The kinds are told apart by how their texts look.  A text may look like anything, and digits may be a number, a
percentage or a date. -/
def ValueKind.apart : ValueKind → ValueKind → Bool
  | text, _ | _, text => false
  | choice c, choice c' => c ≠ c'
  | choice _, _ | _, choice _ => true
  | color, decimal | color, percent | decimal, color | percent, color => true
  | _, _ => false

namespace Value

def Exclusive (k l : ValueKind) : Prop := ∀ t v w, read k t = .ok v → read l t ≠ .ok w

variable {k l : ValueKind} {t : Text} {v w : Value}

theorem Exclusive.symm (h : Exclusive k l) : Exclusive l k := fun t v w hv hw => h t w v hw hv

/-! ## Words -/

theorem word_of_read {c : Choice} (h : read (.choice c) t = .ok v) : ∃ first, t = c.word first := by
  unfold read Choice.find? at h
  dsimp only at h
  split_ifs at h with hfirst hsecond
  · exact ⟨true, hfirst⟩
  · exact ⟨false, hsecond⟩

/-- A word is read as a value of its own kind, or as a text. -/
theorem kind_of_read_word {c : Choice} {first : Bool} (h : read k (c.word first) = .ok v) :
    k = .choice c ∨ k = .text := by
  have hnone : ∀ l ∈ ValueKind.all, l = .choice c ∨ l = .text ∨ (read l (c.word first)).toOption = none := by
    cases c <;> cases first <;> decide +kernel
  have hall : k ∈ ValueKind.all := by
    rcases k with (_ | _ | _ | _ | _ | _) | _ | _ | _ | _ | _ <;> decide
  rcases hnone k hall with hk | hk | hk
  · exact .inl hk
  · exact .inr hk
  · rw [h] at hk
    exact absurd hk (by simp [Except.toOption])

theorem exclusive_choice {c : Choice} (hk : k ≠ .choice c) (ht : k ≠ .text) : Exclusive (.choice c) k := by
  intro t v w hv hw
  obtain ⟨first, rfl⟩ := word_of_read hv
  rcases kind_of_read_word hw with h | h
  · exact hk h
  · exact ht h

/-! ## Commas -/

theorem comma_mem_of_readColor (h : readColor t = .ok v) : .char ',' ∈ t := by
  by_contra hcomma
  unfold readColor at h
  rw [Text.split_of_not_mem hcomma] at h
  exact absurd h (by simp)

theorem comma_not_mem_of_readDecimal {d : Decimal} (h : readDecimal t = .ok d) : .char ',' ∉ t :=
  Decimal.comma_not_mem_of_read (readDecimal_eq_ok.1 h).2

theorem exclusive_color_decimal : Exclusive .color .decimal := by
  intro t v w hv hw
  obtain ⟨d, hd, _⟩ := Outcome.map_eq_ok.1 hw
  exact comma_not_mem_of_readDecimal hd (comma_mem_of_readColor hv)

theorem exclusive_color_percent : Exclusive .color .percent := by
  intro t v w hv hw
  obtain ⟨d, hd, _⟩ := Outcome.map_eq_ok.1 hw
  exact comma_not_mem_of_readDecimal (readPercent_eq_ok.1 hd).1 (comma_mem_of_readColor hv)

/-- **Kinds that are told apart read no common text.** -/
theorem exclusive_of_apart (h : k.apart l = true) : Exclusive k l := by
  unfold ValueKind.apart at h
  split at h
  · cases h
  · cases h
  · next c c' =>
    have hne : c ≠ c' := of_decide_eq_true h
    refine exclusive_choice ?_ (by simp)
    rintro ⟨⟩
    exact hne rfl
  · next c htext hother => exact exclusive_choice (hother c) htext
  · next c htext hother => exact (exclusive_choice (hother c) htext).symm
  · exact exclusive_color_decimal
  · exact exclusive_color_percent
  · exact exclusive_color_decimal.symm
  · exact exclusive_color_percent.symm
  · cases h

/-! ## The first kind that accepts a text -/

theorem readAny?_eq_none_iff {ks : List ValueKind} : readAny? ks t = none ↔ ∀ k ∈ ks, ∀ v, read k t ≠ .ok v := by
  unfold readAny?
  rw [List.findSome?_eq_none_iff]
  refine forall₂_congr fun k _ => ?_
  cases read k t <;> simp [Except.toOption]

/-- **The order of kinds that are told apart does not matter**: a value is found exactly if its own kind is among them and
reads it. -/
theorem readAny?_eq_some_iff {ks : List ValueKind} (hks : ∀ k ∈ ks, ∀ l ∈ ks, k ≠ l → k.apart l = true) :
    readAny? ks t = some v ↔ v.kind ∈ ks ∧ read v.kind t = .ok v := by
  constructor
  · exact read_of_readAny?
  · rintro ⟨hkind, hread⟩
    cases hfound : readAny? ks t with
    | none => exact absurd hread (readAny?_eq_none_iff.1 hfound v.kind hkind v)
    | some w =>
      obtain ⟨hkind', hread'⟩ := read_of_readAny? hfound
      by_cases h : v.kind = w.kind
      · rw [← h, hread] at hread'
        cases hread'
        rfl
      · exact absurd hread' (exclusive_of_apart (hks _ hkind _ hkind' h) t v w hread)

end Value

end RequestRules
