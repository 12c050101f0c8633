import RequestRules.Grammar.Segment
import RequestRules.Proofs.Grammar.Header
import RequestRules.Proofs.Outcome

/-!
# The shape of the rules that are read

`Inbound.read_ok` and `Outbound.read_ok` take the reading of one rule apart.  From them follows what holds of every rule
that is read, whatever the text: `Outbound.shapely_of_read` and, for both directions, `Segment.shapely_of_mem_readAll`.
-/

namespace RequestRules

/-! ## Rules for polling -/

namespace Inbound

theorem read_ok {t : Text} {s : Inbound} (h : read t = .ok s) :
    ∃ p, parts? t = some p ∧ p.digits ≠ [] ∧ p.digits.length ≤ Numeral.limit ∧
      s.url = p.url.replace (.of "\\\"") [] ∧ s.headers = Header.parseOption p.header ∧
      s.interval = Numeral.value p.digits ∧ s.transformation = p.transformation.replace (.of "\\\"") ['"'] := by
  unfold read at h
  split at h
  · exact absurd h (by simp)
  · next p hp =>
    split_ifs at h hp with hdigits hlong
    have hparts : parts? t = some p := hp
    have hne : p.digits ≠ [] := by simpa using hdigits
    cases h
    exact ⟨p, hparts, hne, Nat.le_of_not_lt hlong, rfl, rfl, rfl, rfl⟩

end Inbound

/-! ## Rules for sending -/

theorem Payload.transformation?_or_body? (p : Payload) : p.transformation? = none ∨ p.body? = none := by
  cases p with
  | transformation t => exact .inr rfl
  | body t => exact .inl rfl

namespace Outbound

theorem parts?_method {t command method rest : Text} (h : parts? t = some (command, method, rest)) :
    ∀ c ∈ method, c.isUpper = true := by
  induction t generalizing command with
  | nil => exact absurd h (by simp [parts?])
  | cons c t ih =>
    unfold parts? at h
    split at h
    · next m r hm =>
      cases h
      split_ifs at hm
      exact (Text.run?_eq_some hm).2
    · obtain ⟨⟨command', p⟩, htail, heq⟩ := Option.map_eq_some_iff.1 h
      cases heq
      exact ih htail

theorem takeLeading_writable {t : Text} : ∀ h ∈ (takeLeading t).1, h.Writable := by
  unfold takeLeading
  split_ifs
  · cases t.cut? '}' with
    | none => simp
    | some p => exact fun h hh => Header.writable_of_mem_parse hh
  · simp

/-- A rule that is read, taken apart into its written parts, the target that follows the headers in front, and the
payload, which only a POST has. -/
theorem read_ok {t : Text} {s : Outbound} (h : read t = .ok s) :
    ∃ rest target payload, parts? t = some (s.command, s.method, rest) ∧
      Target.read (takeLeading (rest.replace (.of "\\\"") [])).2 = .ok target ∧ s.url = target.url ∧
      s.headers = (takeLeading (rest.replace (.of "\\\"") [])).1 ++ Header.parseOption target.fragment ∧
      payload = (if s.method = post then target.body.map Payload.classify else none) ∧
      s.body = payload.bind Payload.body? ∧ s.transformation = payload.bind Payload.transformation? := by
  unfold read at h
  split at h
  · exact absurd h (by simp)
  · next command method rest hp =>
    split_ifs at hp
    obtain ⟨target, htarget, h⟩ := Outcome.bind_eq_ok.1 h
    cases h
    exact ⟨rest, target, _, hp, htarget, rfl, rfl, rfl, rfl, rfl⟩

structure Shapely (s : Outbound) : Prop where
  method : ∀ c ∈ s.method, c.isUpper = true
  headers : ∀ h ∈ s.headers, h.Writable
  post : s.method ≠ post → s.body = none ∧ s.transformation = none
  notBoth : s.transformation = none ∨ s.body = none

/-- **A rule that is read** has a method of capital letters, headers that can be written, and a payload only for a POST,
which is a transformation or a body. -/
theorem shapely_of_read {t : Text} {s : Outbound} (h : read t = .ok s) : s.Shapely := by
  obtain ⟨rest, target, payload, hparts, _, _, hheaders, hpayload, hbody, htransformation⟩ := read_ok h
  refine ⟨parts?_method hparts, fun x hx => ?_, fun hpost => ?_, ?_⟩
  · rw [hheaders] at hx
    rcases List.mem_append.1 hx with hx | hx
    · exact takeLeading_writable x hx
    · exact Header.writable_of_mem_parseOption hx
  · rw [if_neg hpost] at hpayload
    rw [hbody, htransformation, hpayload]
    exact ⟨rfl, rfl⟩
  · rw [hbody, htransformation]
    cases payload with
    | none => exact .inl rfl
    | some p => exact p.transformation?_or_body?

end Outbound

/-! ## Whole texts -/

namespace Segment

def Shapely : Segment → Prop
  | inbound s => ∀ h ∈ s.headers, h.Writable
  | outbound s => s.Shapely

theorem shapely_of_read {x : Direction × Text} {s : Segment} (h : read x = .ok s) : s.Shapely := by
  obtain ⟨d, t⟩ := x
  cases d with
  | inbound =>
    obtain ⟨s', hs, rfl⟩ := Outcome.map_eq_ok.1 h
    obtain ⟨p, _, _, _, _, hheaders, _⟩ := Inbound.read_ok hs
    intro x hx
    rw [hheaders] at hx
    exact Header.writable_of_mem_parseOption hx
  | outbound =>
    obtain ⟨s', hs, rfl⟩ := Outcome.map_eq_ok.1 h
    exact Outbound.shapely_of_read (Outcome.mapError_eq_ok.1 hs)

theorem shapely_of_mem_readAll {t : Text} {ss : List Segment} (h : readAll t = .ok ss) {s : Segment} (hs : s ∈ ss) :
    s.Shapely := by
  obtain ⟨xs, _, hall⟩ := Outcome.bind_eq_ok.1 h
  obtain ⟨x, _, hx⟩ := Outcome.exists_of_mem_mapM hall hs
  exact shapely_of_read hx

end Segment

end RequestRules
