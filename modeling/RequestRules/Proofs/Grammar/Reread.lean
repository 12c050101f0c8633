import RequestRules.Proofs.Grammar.Address

/-!
# Addresses are read again

Taking an address off the front of a text loses nothing: `Address.render_append` puts the address and what is left together
again, and `Located.render_append_body` the address and the body, if the text is on one line.  The address that is read is
told apart in the same places when it stands alone (`Address.endsBefore_nil`), so it is read again as it was
(`Located.read_again`).
-/

namespace RequestRules

namespace Address

section Parts

variable {mark stops t r : Text} {p : Option Text}

theorem upTo_spec {s : Text} (h : upTo stops t = (s, r)) :
    t = s ++ r ∧ (∀ c ∈ s, c ∉ stops) ∧ ∀ c ∈ r.head?, c ∈ stops := by
  unfold upTo at h
  rw [List.span_eq_takeWhile_dropWhile] at h
  obtain ⟨rfl, rfl⟩ := Prod.mk.inj h
  refine ⟨List.takeWhile_append_dropWhile.symm, fun c hc => ?_, fun c hc => ?_⟩
  · simpa using List.mem_takeWhile_imp hc
  · have hhead := List.head?_dropWhile_not (fun c => !stops.contains c) t
    rw [Option.mem_def.1 hc] at hhead
    simpa using hhead

/-- A part that is there or not, and what is left of the text. -/
theorem part_spec (h : part mark stops t = (p, r)) : t = marked mark p ++ r ∧ (p = none → ¬ mark <+: r) ∧
    ∀ s, p = some s → (∀ c ∈ s, c ∉ stops) ∧ ∀ c ∈ r.head?, c ∈ stops := by
  unfold part at h
  split at h
  · next hstrip =>
    cases h
    refine ⟨rfl, fun _ => ?_, by simp⟩
    rintro ⟨s, rfl⟩
    rw [Text.strip?_append] at hstrip
    exact absurd hstrip (by simp)
  · next s hstrip =>
    cases h
    obtain ⟨hs, hstops⟩ := upTo_spec (t := s) rfl
    refine ⟨?_, by simp, by rintro _ ⟨⟩; exact hstops⟩
    rw [Text.strip?_eq_some.1 hstrip, marked, List.append_assoc, ← hs]

def schemePart : Option Text → Text
  | none => []
  | some s => s ++ [.char ':']

theorem readScheme_spec (h : readScheme t = (p, r)) : t = schemePart p ++ r ∧
    (∀ s, p = some s → s ≠ [] ∧ ∀ c ∈ s, c ∉ Text.of ":/?#") ∧
      (p = none → ∀ s u, t = s ++ .char ':' :: u → s = [] ∨ ∃ c ∈ s, c ∈ Text.of ":/?#") := by
  unfold readScheme at h
  split at h
  · next c s u hu =>
    cases h
    obtain ⟨rfl, hs, _⟩ := upTo_spec hu
    exact ⟨by simp [schemePart], by rintro _ ⟨⟩; exact ⟨by simp, hs⟩, by simp⟩
  · next hother =>
    cases h
    refine ⟨rfl, by simp, fun _ s u hsu => ?_⟩
    by_contra hrun
    obtain ⟨hne, hfree⟩ := not_or.1 hrun
    have hs : ∀ c ∈ s, c ∉ Text.of ":/?#" := fun c hc hstop => hfree ⟨c, hc, hstop⟩
    obtain ⟨c, s, rfl⟩ := List.exists_cons_of_ne_nil hne
    exact hother c s u (by rw [hsu]; exact upTo_append hs (by simp [Text.of]))

end Parts

/-! ## What is read off a text -/

theorem render_eq_schemePart (a : Address) : a.render = schemePart a.scheme ++ a.fromAuthority := by
  rw [render_eq]
  cases a.scheme <;> rfl

/-- What is left in front of the authority, of the path, of the query and of the fragment. -/
theorem exists_read (t : Text) : ∃ t₁ t₂ t₃ t₄, readScheme t = ((read t).1.scheme, t₁) ∧
    part (.of "//") (.of "/?#") t₁ = ((read t).1.authority, t₂) ∧
      upTo (.of "?#:") t₂ = ((read t).1.path, t₃) ∧
        part (.of "?") (.of "#:") t₃ = ((read t).1.query, t₄) ∧
          part (.of "#") (.of "\n") t₄ = ((read t).1.fragment, (read t).2) :=
  ⟨_, _, _, _, rfl, rfl, rfl, rfl, rfl⟩

/-- What is left in front of the path. -/
theorem exists_read_fromPath (t : Text) : ∃ t₁, readScheme t = ((read t).1.scheme, t₁) ∧
    part (.of "//") (.of "/?#") t₁ = ((read t).1.authority, (read t).1.fromPath ++ (read t).2) := by
  obtain ⟨t₁, t₂, t₃, t₄, hscheme, hauthority, hpath, hquery, hfragment⟩ := exists_read t
  have hfrom : t₂ = (read t).1.fromPath ++ (read t).2 := by
    rw [(upTo_spec hpath).1, (part_spec hquery).1, (part_spec hfragment).1, fromPath]
    simp only [List.append_assoc]
  exact ⟨t₁, hscheme, hfrom ▸ hauthority⟩

/-- **Nothing is lost**: the address and what is left are the text. -/
theorem render_append (t : Text) : (read t).1.render ++ (read t).2 = t := by
  obtain ⟨t₁, hscheme, hauthority⟩ := exists_read_fromPath t
  have ht := (readScheme_spec hscheme).1
  rw [(part_spec hauthority).1, ← List.append_assoc, ← List.append_assoc, List.append_assoc (schemePart _)] at ht
  rw [render_eq_schemePart]
  exact ht.symm

/-- **The address that is read** is told apart in the same places when it stands alone. -/
theorem endsBefore_nil (t : Text) : (read t).1.EndsBefore [] := by
  obtain ⟨t₁, hscheme, hauthority⟩ := exists_read_fromPath t
  obtain ⟨_, hsome, hnone⟩ := readScheme_spec hscheme
  obtain ⟨_, hunmarked, hstops⟩ := part_spec hauthority
  obtain ⟨_, _, _, _, _, _, hpath, hquery, hfragment⟩ := exists_read t
  refine ⟨hsome, fun h s u hsu => ?_, fun s hs => ⟨(hstops s hs).1, fun c hc => ?_⟩, fun h hp => ?_,
    (upTo_spec hpath).2.1, fun s hs => ((part_spec hquery).2.2 s hs).1, fun s hs => ⟨fun hn => ?_, rfl⟩⟩
  · -- what looks like a scheme in the address does so in the text
    refine hnone h s (u ++ (read t).2) ?_
    rw [List.append_nil] at hsu
    rw [← List.cons_append, ← List.append_assoc, ← hsu, render_append]
  · refine (hstops s hs).2 c ?_
    rw [List.append_nil] at hc
    rw [List.head?_append, Option.mem_def.1 hc]
    rfl
  · rw [List.append_nil] at hp
    exact hunmarked h (hp.trans (List.prefix_append _ _))
  · exact ((part_spec hfragment).2.2 s hs).1 '\n' hn (by decide)

theorem head?_of_fragment {t s : Text} (h : (read t).1.fragment = some s) : ∀ c ∈ (read t).2.head?, c = '\n' := by
  obtain ⟨_, _, _, _, _, _, _, _, hfragment⟩ := exists_read t
  intro c hc
  simpa [Text.of] using ((part_spec hfragment).2.2 s h).2 c hc

theorem head?_of_no_fragment {t : Text} (h : (read t).1.fragment = none) : ∀ c ∈ (read t).2.head?, c = ':' := by
  obtain ⟨_, _, t₃, t₄, _, _, hpath, hquery, hfragment⟩ := exists_read t
  obtain ⟨h₅, hnumber, _⟩ := part_spec hfragment
  obtain ⟨h₄, hquestion, hquerystops⟩ := part_spec hquery
  have hrest : t₄ = (read t).2 := by rw [h₅, h]; rfl
  intro c hc
  have hfront : ∀ m, m = c → [m] <+: (read t).2 := by
    rintro m rfl
    obtain ⟨r, hr⟩ := List.head?_eq_some_iff.1 hc
    exact ⟨r, hr.symm⟩
  have hstop : c = '#' ∨ c = ':' := by
    cases hq : (read t).1.query with
    | some s => simpa [Text.of] using (hquerystops s hq).2 c (hrest ▸ hc)
    | none =>
      rw [hq, hrest] at h₄
      have hpathstop : c = '?' ∨ c = '#' ∨ c = ':' := by simpa [Text.of] using (upTo_spec hpath).2.2 c (h₄ ▸ hc)
      exact hpathstop.resolve_left fun hm => hquestion hq (hrest ▸ hfront '?' hm.symm)
  exact hstop.resolve_left fun hm => hnumber h (hfront '#' hm.symm)

end Address

namespace Located

theorem read_body (t : Text) : (read t).body = (Address.part [':'] ['\n'] (Address.read t).2).1 := rfl

/-- **A text with a fragment** has no body. -/
theorem body_of_fragment {t s : Text} (h : (read t).address.fragment = some s) : (read t).body = none := by
  have hnone : ¬ [.char ':'] <+: (Address.read t).2 := by
    rintro ⟨r, hr⟩
    exact absurd (Address.head?_of_fragment h ':' (by rw [← hr]; rfl)) (by decide)
  rw [read_body, Address.part, Text.strip?_eq_none hnone]

/-- **Nothing is lost** of a text on one line. -/
theorem render_append_body {t : Text} (ht : .char '\n' ∉ t) : (read t).address.render ++ bodyPart (read t).body = t := by
  have hline : .char '\n' ∉ (Address.read t).2 := by
    rw [← Address.render_append t] at ht
    exact fun hn => ht (List.mem_append_right _ hn)
  obtain ⟨left, hpart⟩ : ∃ left, Address.part [':'] ['\n'] (Address.read t).2 = ((read t).body, left) := ⟨_, rfl⟩
  obtain ⟨hbody, hcolon, hnewline⟩ := Address.part_spec hpart
  cases left with
  | nil =>
    rw [List.append_nil] at hbody
    rw [bodyPart, ← hbody]
    exact Address.render_append t
  | cons c left =>
    -- a newline would be left behind a body or a fragment, and nothing but a newline
    have hc : c ≠ '\n' := by
      rintro rfl
      exact hline (by rw [hbody]; simp)
    cases hb : (read t).body with
    | some b => exact absurd (by simpa using (hnewline b hb).2) hc
    | none =>
      rw [hb] at hbody
      have hhead : c ∈ (Address.read t).2.head? := by rw [hbody]; rfl
      cases hf : (Address.read t).1.fragment with
      | some s => exact absurd (Address.head?_of_fragment hf c hhead) hc
      | none => exact absurd ⟨left, by rw [Address.head?_of_no_fragment hf c hhead]; rfl⟩ (hcolon hb)

/-- **The address is read again** as it was read, and has no body. -/
theorem read_again (t : Text) : read (read t).address.render = ⟨(read t).address, none⟩ := by
  have h := read_render (a := (read t).address) (b := none) (Address.endsBefore_nil t) (by simp)
  rwa [bodyPart, Address.marked, List.append_nil] at h

/-- A port without an authority is no port. -/
example : read (.of "a:80:b") = ⟨⟨some (.of "a"), none, .of "80", none, none⟩, some (.of "b")⟩ := by decide

end Located

end RequestRules
