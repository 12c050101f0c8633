import RequestRules.Proofs.Descriptor.WellFormed
import RequestRules.Proofs.Grammar.Parts

/-!
# Requests without a URL

Every request for sending has a URL.  The one for polling has none exactly if the last segment for polling writes none
(`Descriptor.url_of_parse`), which is accepted.
-/

namespace RequestRules

theorem Target.url_ne_nil {t : Text} {target : Target} (h : Target.read t = .ok target) : target.url ≠ [] := by
  obtain ⟨⟨url, fragment⟩, _, h⟩ := Outcome.bind_eq_ok.1 h
  change (if url.isEmpty then Except.error (GrammarError.emptyAddress t) else _) = _ at h
  split_ifs at h with hempty
  cases h
  simpa using hempty

theorem Outbound.url_ne_nil {t : Text} {s : Outbound} (h : Outbound.read t = .ok s) : s.url ≠ [] := by
  obtain ⟨_, target, _, _, htarget, hurl, _⟩ := Outbound.read_ok h
  rw [hurl]
  exact Target.url_ne_nil htarget

namespace Descriptor

/-- **URLs of an accepted text**: each request for sending has one, and the request for polling has none exactly if the
last segment for polling writes none. -/
theorem url_of_parse {item : Item} {text : Text} {d : Descriptor} (h : parse item text = .ok d) :
    ∃ xs, Direction.segments text = .ok xs ∧
      (∀ e ∈ d.entries, e.1 ≠ .inbound → e.2.url ≠ []) ∧
      ∀ e ∈ d.entries, e.1 = .inbound → ∃ inner,
        (xs.reverse.find? fun x => x.1 = .inbound) = some (.inbound, inner) ∧
          (e.2.url = [] ↔ Inbound.LacksUrl inner) := by
  have hdistinct : Distinct d.entries := (wellFormed_of_parse h).1.distinct
  obtain ⟨ss, es, hss, hall, rfl⟩ := entries_of_parse h
  obtain ⟨xs, hxs, hread⟩ := Outcome.bind_eq_ok.1 hss
  have hpairs := Outcome.mapM_eq_ok.1 hread
  refine ⟨xs, Outcome.mapError_eq_ok.1 hxs, fun e he hkey => ?_, fun e he hkey => ?_⟩
  · obtain ⟨s, hs, hsome, hrequest⟩ := Outcome.exists_of_mem_right hall ((mem_foldl_put he).resolve_right List.not_mem_nil)
    obtain ⟨⟨dir, t⟩, _, hst⟩ := Outcome.exists_of_mem_right hpairs hs
    cases dir with
    | inbound =>
      obtain ⟨i, _, rfl⟩ := Outcome.map_eq_ok.1 hst
      exact absurd (Option.some.inj hsome).symm hkey
    | outbound =>
      obtain ⟨o, ho, rfl⟩ := Outcome.map_eq_ok.1 hst
      rw [hrequest]
      exact Outbound.url_ne_nil (Outcome.mapError_eq_ok.1 ho)
  · -- the request comes from the last segment for polling, which is read from the last inner text for polling
    have hget : (ofEntries item.name item.type.states es).inbound = some e.2 := by
      rw [inbound, ← hkey]
      exact get?_of_mem hdistinct he
    rw [(separate_of_forall₂ hall item.name item.type.states).1] at hget
    obtain ⟨s, hfind, hrequest⟩ := Option.map_eq_some_iff.1 hget
    have hdirection : ∀ (x : Direction × Text) (s : Segment), Segment.read x = .ok s →
        decide (x.1 = .inbound) = s.isInbound := by
      rintro ⟨dir, t⟩ s hst
      cases dir <;> obtain ⟨_, _, rfl⟩ := Outcome.map_eq_ok.1 hst <;> rfl
    obtain ⟨⟨dir, inner⟩, hx, hst⟩ := Outcome.exists_of_find?_right (List.rel_reverse hpairs) hdirection hfind
    have hdir : dir = .inbound := by simpa using List.find?_some hx
    subst hdir
    obtain ⟨i, hi, rfl⟩ := Outcome.map_eq_ok.1 hst
    refine ⟨inner, hx, ?_⟩
    rw [← hrequest]
    exact Inbound.url_eq_nil_iff hi

/-- A lamp with a rule for sending, a rule for polling that has a URL, and a later one that has headers only. -/
theorem url_of_parse_lamp :
    let lamp : Item := ⟨.switch, .of "Lamp", .of "Lamp"⟩
    let text := Text.of "<[http://x/s:5:default] >[ON:GET:http://x/on] <[\\\"\x7ba=1\x7d:60:default]"
    let polled : Request := ⟨[], none, [(.of "a", .of "1")], 60, some (.of "default"), none⟩
    let sent : Request := ⟨.of "http://x/on", some (.of "GET"), [], 0, none, none⟩
    let d : Descriptor := ⟨lamp.name, lamp.type.states, [(.command (.word .onOff true), sent), (.inbound, polled)]⟩
    Descriptor.parse lamp text = .ok d ∧ ∃ inner, Inbound.LacksUrl inner ∧ ∃ xs, Direction.segments text = .ok xs ∧
      (xs.reverse.find? fun x => x.1 = .inbound) = some (.inbound, inner) := by
  intro lamp text polled sent d
  have hparse : Descriptor.parse lamp text = .ok d := by decide +kernel
  obtain ⟨xs, hxs, _, hinbound⟩ := url_of_parse hparse
  obtain ⟨inner, hlast, hurl⟩ := hinbound (.inbound, polled) (by simp [d]) rfl
  exact ⟨hparse, inner, hurl.1 rfl, xs, hxs, hlast⟩

/-- **A rule for polling may have no URL** and is accepted. -/
theorem parse_noUrl :
    let lamp : Item := ⟨.switch, .of "Lamp", .of "Lamp"⟩
    let polled : Request := ⟨[], none, [], 60, some (.of "default"), none⟩
    Descriptor.parse lamp (.of "<[:60:default]") = .ok ⟨lamp.name, lamp.type.states, [(.inbound, polled)]⟩ ∧
      polled.url = [] := by
  intro lamp polled
  exact ⟨by decide +kernel, rfl⟩

end Descriptor

end RequestRules
