import RequestRules.Grammar.Segment
import RequestRules.Proofs.Grammar.RoundTrip
import RequestRules.Proofs.Grammar.Shape

/-!
# Where a rule for polling is cut

`Inbound.parts?_eq_some` puts the parts that are cut out of a text together again, and `Inbound.parts?_front` finds parts
without a URL in every text that begins with headers and a tail, or with a tail.  So a rule that is read has no URL
exactly if none is written (`Inbound.url_eq_nil_iff`): nothing stands before its headers or its interval but `\"`s, which
are taken out.
-/

namespace RequestRules

namespace Inbound

theorem tail?_eq_some {t digits transformation : Text} : tail? t = some (digits, transformation) ↔
    t = .char ':' :: (digits ++ .char ':' :: transformation) ∧ ∀ c ∈ digits, c.isDigit = true := by
  constructor
  · intro h
    unfold tail? at h
    split at h
    · next t =>
      split_ifs at h
      obtain ⟨rfl, hdigits⟩ := Text.run?_eq_some h
      exact ⟨rfl, hdigits⟩
    · exact absurd h (by simp)
  · rintro ⟨rfl, hdigits⟩
    cases digits with
    | nil => rfl
    | cons c digits => exact tail?_digits (by simp) hdigits transformation

/-! ## Headers -/

def IsHeader (t : Text) : Prop := t = [] ∨ ∃ inner, t = .char '{' :: (inner ++ [.char '}'])

theorem longestHeader?_eq_some {t h : Text} {tail : Text × Text} (hlong : longestHeader? t = some (h, tail)) :
    ∃ inner r, h = inner ++ [.char '}'] ∧ t = h ++ r ∧ tail? r = some tail := by
  induction t generalizing h with
  | nil => exact absurd hlong (by simp [longestHeader?])
  | cons c t ih =>
    unfold longestHeader? at hlong
    split at hlong
    · next h' tail' hrest =>
      cases hlong
      obtain ⟨inner, r, rfl, rfl, hr⟩ := ih hrest
      exact ⟨c :: inner, r, rfl, rfl, hr⟩
    · split_ifs at hlong with hc
      obtain ⟨tail', htail, heq⟩ := Option.map_eq_some_iff.1 hlong
      cases heq
      exact ⟨[], t, by rw [hc]; rfl, rfl, htail⟩

/-- Where headers can end there are headers, perhaps longer ones. -/
theorem exists_longestHeader? {r : Text} (hr : ∃ tail, tail? r = some tail) (s : Text) :
    ∃ x, longestHeader? (s ++ .char '}' :: r) = some x := by
  obtain ⟨tail, htail⟩ := hr
  induction s with
  | nil =>
    rw [List.nil_append, longestHeader?]
    cases longestHeader? r with
    | some x => exact ⟨_, rfl⟩
    | none => exact ⟨(['}'], tail), by simp [htail]⟩
  | cons c s ih =>
    obtain ⟨x, hx⟩ := ih
    rw [List.cons_append, longestHeader?, hx]
    exact ⟨_, rfl⟩

/-! ## All parts -/

theorem parts?_eq_some {t : Text} {p : Parts} (h : parts? t = some p) :
    t = p.url ++ (p.header.getD [] ++ .char ':' :: (p.digits ++ .char ':' :: p.transformation)) ∧
      IsHeader (p.header.getD []) ∧ ∀ c ∈ p.digits, c.isDigit = true := by
  induction t generalizing p with
  | nil => exact absurd h (by simp [parts?])
  | cons c t ih =>
    unfold parts? at h
    split at h
    · next header digits transformation hlong =>
      cases h
      split_ifs at hlong with hc
      obtain ⟨inner, r, rfl, rfl, hr⟩ := longestHeader?_eq_some hlong
      obtain ⟨rfl, hdigits⟩ := tail?_eq_some.1 hr
      exact ⟨rfl, .inr ⟨inner, by rw [hc]; rfl⟩, hdigits⟩
    · split at h
      · next digits transformation htail =>
        cases h
        obtain ⟨heq, hdigits⟩ := tail?_eq_some.1 htail
        exact ⟨heq, .inl rfl, hdigits⟩
      · obtain ⟨q, hq, rfl⟩ := Option.map_eq_some_iff.1 h
        obtain ⟨rfl, hheader, hdigits⟩ := ih hq
        exact ⟨rfl, hheader, hdigits⟩

/-- A text that begins with headers and a tail, or with a tail, is cut there. -/
theorem parts?_front {header r : Text} (hheader : IsHeader header) (hr : ∃ tail, tail? r = some tail) :
    ∃ p, parts? (header ++ r) = some p ∧ p.url = [] := by
  rcases hheader with rfl | ⟨inner, rfl⟩
  · obtain ⟨tail, htail⟩ := hr
    obtain ⟨hcolon, _⟩ := tail?_eq_some.1 htail
    rw [List.nil_append, hcolon, parts?, if_neg (by decide), ← hcolon, htail]
    exact ⟨_, rfl, rfl⟩
  · obtain ⟨x, hx⟩ := exists_longestHeader? hr inner
    have hlong : longestHeader? (inner ++ [.char '}'] ++ r) = some x := by simpa using hx
    rw [List.cons_append, parts?, if_pos rfl, hlong]
    exact ⟨_, rfl, rfl⟩

/-! ## Rules without a URL -/

/-- Nothing is written before the headers and the interval, or before the interval, but `\"`s. -/
def LacksUrl (t : Text) : Prop :=
  ∃ n header digits transformation,
    t = (List.replicate n (Text.of "\\\"")).flatten ++ (header ++ .char ':' :: (digits ++ .char ':' :: transformation)) ∧
      IsHeader header ∧ ∀ c ∈ digits, c.isDigit = true

theorem mem_flatten_quotes {n : Nat} {c : CodePoint} (h : c ∈ (List.replicate n (Text.of "\\\"")).flatten) :
    c = '\\' ∨ c = '"' := by
  obtain ⟨l, hl, hc⟩ := List.mem_flatten.1 h
  rw [List.eq_of_mem_replicate hl] at hc
  simpa [Text.of] using hc

/-- **A rule that is read has no URL** exactly if none is written. -/
theorem url_eq_nil_iff {t : Text} {s : Inbound} (h : read t = .ok s) : s.url = [] ↔ LacksUrl t := by
  obtain ⟨p, hp, _, _, hurl, _⟩ := read_ok h
  rw [hurl]
  constructor
  · intro hnil
    obtain ⟨n, hn⟩ := Text.replace_eq_nil_iff.1 hnil
    obtain ⟨heq, hheader, hdigits⟩ := parts?_eq_some hp
    rw [hn] at heq
    exact ⟨n, p.header.getD [], p.digits, p.transformation, heq, hheader, hdigits⟩
  · rintro ⟨n, header, digits, transformation, rfl, hheader, hdigits⟩
    have hbrace : .char '{' ∉ (List.replicate n (Text.of "\\\"")).flatten := by
      intro hc
      rcases mem_flatten_quotes hc with hc | hc <;> exact absurd hc (by decide)
    have hrun : Text.NoRun CodePoint.isDigit (List.replicate n (Text.of "\\\"")).flatten := by
      intro r hr
      have hcolon : .char ':' ∈ (List.replicate n (Text.of "\\\"")).flatten := hr.subset List.mem_cons_self
      rcases mem_flatten_quotes hcolon with hc | hc <;> exact absurd hc (by decide)
    obtain ⟨q, hq, hnone⟩ := parts?_front hheader ⟨_, tail?_eq_some.2 ⟨rfl, hdigits⟩⟩
    rw [parts?_append hbrace hrun, hq] at hp
    cases hp
    refine Text.replace_eq_nil_iff.2 ⟨n, ?_⟩
    show (List.replicate n (Text.of "\\\"")).flatten ++ q.url = _
    rw [hnone, List.append_nil]
    rfl

end Inbound

end RequestRules
