import RequestRules.Grammar.Address
import RequestRules.Proofs.Grammar.Header

/-!
# Addresses come back

`Address.EndsBefore rest` says that the components of an address are told apart where they should be when `rest` follows
the written address.  `read_render`: then exactly the address is read, and `rest` is left.  `Target.read_eq` puts an
address, an embedded header fragment and a body together.
-/

namespace RequestRules

namespace Address

def fromPath (a : Address) : Text := a.path ++ (marked (.of "?") a.query ++ marked (.of "#") a.fragment)

def fromAuthority (a : Address) : Text := marked (.of "//") a.authority ++ a.fromPath

theorem render_eq (a : Address) :
    a.render = (match a.scheme with | some s => s ++ [.char ':'] | none => []) ++ a.fromAuthority := by
  cases h : a.scheme <;> simp [render, fromAuthority, fromPath, h]

/-- The components are told apart when `rest` follows the written address, which then ends before `rest`. -/
structure EndsBefore (a : Address) (rest : Text) : Prop where
  scheme : ∀ s, a.scheme = some s → s ≠ [] ∧ ∀ c ∈ s, c ∉ Text.of ":/?#"
  /-- without a scheme nothing looks like one -/
  noScheme : a.scheme = none → ∀ s r, a.render ++ rest = s ++ .char ':' :: r → s = [] ∨ ∃ c ∈ s, c ∈ Text.of ":/?#"
  authority : ∀ s, a.authority = some s →
    (∀ c ∈ s, c ∉ Text.of "/?#") ∧ ∀ c ∈ (a.fromPath ++ rest).head?, c ∈ Text.of "/?#"
  /-- without an authority nothing looks like one -/
  noAuthority : a.authority = none → ¬ Text.of "//" <+: a.fromPath ++ rest
  path : ∀ c ∈ a.path, c ∉ Text.of "?#:"
  query : ∀ s, a.query = some s → ∀ c ∈ s, c ∉ Text.of "#:"
  /-- a fragment goes on to the end of the line -/
  fragment : ∀ s, a.fragment = some s → .char '\n' ∉ s ∧ rest = []

/-! ## Reading the components -/

theorem upTo_append {stops l r : Text} (hl : ∀ c ∈ l, c ∉ stops) (hr : ∀ c ∈ r.head?, c ∈ stops) :
    upTo stops (l ++ r) = (l, r) := by
  refine Text.span_append ?_ ?_
  · intro c hc
    simpa using hl c hc
  · intro c hc
    simpa using hr c hc

theorem part_marked (mark stops : Text) {r : Text} {p : Option Text} (hnone : p = none → ¬ mark <+: r)
    (hsome : ∀ s, p = some s → (∀ c ∈ s, c ∉ stops) ∧ ∀ c ∈ r.head?, c ∈ stops) :
    part mark stops (marked mark p ++ r) = (p, r) := by
  unfold part
  cases p with
  | none =>
    rw [marked, List.nil_append, Text.strip?_eq_none (hnone rfl)]
  | some s =>
    obtain ⟨hs, hr⟩ := hsome s rfl
    rw [marked, List.append_assoc, Text.strip?_append]
    simp only [upTo_append hs hr]

theorem head?_marked {m c : CodePoint} {p : Option Text} {r : Text} (h : c ∈ (marked [m] p ++ r).head?) :
    c = m ∨ c ∈ r.head? := by
  cases p with
  | none => exact Or.inr h
  | some s => exact Or.inl (by simpa [marked, eq_comm] using h)

theorem not_singleton_prefix {m : CodePoint} {t : Text} (h : ∀ c ∈ t.head?, c ≠ m) : ¬ [m] <+: t := by
  rintro ⟨r, rfl⟩
  exact h m rfl rfl

theorem readScheme_some {s : Text} (r : Text) (hne : s ≠ []) (hs : ∀ c ∈ s, c ∉ Text.of ":/?#") :
    readScheme (s ++ .char ':' :: r) = (some s, r) := by
  have hhead : ∀ c ∈ (.char ':' :: r).head?, c ∈ Text.of ":/?#" := by
    rintro c ⟨⟩
    decide
  have hu : upTo (.of ":/?#") (s ++ .char ':' :: r) = (s, .char ':' :: r) := upTo_append hs hhead
  unfold readScheme
  rw [hu]
  cases s with
  | nil => exact absurd rfl hne
  | cons c s => rfl

theorem readScheme_none {t : Text} (h : ∀ s r, t = s ++ .char ':' :: r → s = [] ∨ ∃ c ∈ s, c ∈ Text.of ":/?#") :
    readScheme t = (none, t) := by
  unfold readScheme
  split
  · next c s r hu =>
    have hsp : t.span (fun c => !(Text.of ":/?#").contains c) = (c :: s, .char ':' :: r) := hu
    rw [List.span_eq_takeWhile_dropWhile, Prod.mk.injEq] at hsp
    have ht : t = (c :: s) ++ .char ':' :: r := by
      rw [← hsp.1, ← hsp.2, List.takeWhile_append_dropWhile]
    exfalso
    rcases h _ _ ht with h | ⟨d, hd, hstop⟩
    · simp at h
    · rw [← hsp.1] at hd
      have hd' := List.mem_takeWhile_imp hd
      simp [hstop] at hd'
  · rfl

variable {a : Address} {rest : Text}

theorem EndsBefore.readScheme_eq (h : a.EndsBefore rest) :
    readScheme (a.render ++ rest) = (a.scheme, a.fromAuthority ++ rest) := by
  cases hs : a.scheme with
  | some s =>
    obtain ⟨hne, hstop⟩ := h.scheme s hs
    rw [render_eq, hs]
    simpa using readScheme_some (a.fromAuthority ++ rest) hne hstop
  | none =>
    have hr : a.render = a.fromAuthority := by rw [render_eq, hs]; rfl
    have hn := h.noScheme hs
    rw [hr] at hn ⊢
    exact readScheme_none hn

/-- **Reading undoes rendering**, up to the end of the text or the colon before a body. -/
theorem read_render (h : a.EndsBefore rest) (hrest : ∀ c ∈ rest.head?, c = ':') :
    read (a.render ++ rest) = (a, rest) := by
  -- what is left behind each component begins with the mark of a later one, or with the colon
  have hbehindQuery : ∀ c ∈ (marked (.of "#") a.fragment ++ rest).head?, c ∈ Text.of "#:" := by
    intro c hc
    rcases head?_marked hc with rfl | hc
    · decide
    · rw [hrest c hc]; decide
  have hbehindPath : ∀ c ∈ (marked (.of "?") a.query ++ (marked (.of "#") a.fragment ++ rest)).head?,
      c ∈ Text.of "?#:" := by
    intro c hc
    rcases head?_marked hc with rfl | hc
    · decide
    · exact List.mem_cons_of_mem _ (hbehindQuery c hc)
  have hfragment : part (.of "#") (.of "\n") (marked (.of "#") a.fragment ++ rest) = (a.fragment, rest) := by
    refine part_marked _ _ (fun _ => not_singleton_prefix fun c hc => ?_) fun s hs => ?_
    · rw [hrest c hc]; decide
    · obtain ⟨hs, rfl⟩ := h.fragment s hs
      refine ⟨?_, by simp⟩
      rintro c hc hcn
      rw [show c = '\n' by simpa [Text.of] using hcn] at hc
      exact hs hc
  have hquery : part (.of "?") (.of "#:") (marked (.of "?") a.query ++ (marked (.of "#") a.fragment ++ rest)) =
      (a.query, marked (.of "#") a.fragment ++ rest) := by
    refine part_marked _ _ (fun _ => not_singleton_prefix fun c hc => ?_) fun s hs => ⟨h.query s hs, hbehindQuery⟩
    rintro rfl
    exact absurd (hbehindQuery _ hc) (by decide)
  have hpath : upTo (.of "?#:") (a.fromPath ++ rest) =
      (a.path, marked (.of "?") a.query ++ (marked (.of "#") a.fragment ++ rest)) := by
    rw [fromPath, List.append_assoc, List.append_assoc]
    exact upTo_append h.path hbehindPath
  have hauthority : part (.of "//") (.of "/?#") (a.fromAuthority ++ rest) = (a.authority, a.fromPath ++ rest) := by
    rw [fromAuthority, List.append_assoc]
    exact part_marked _ _ h.noAuthority h.authority
  unfold read
  rw [h.readScheme_eq]
  simp only [hauthority, hpath, hquery, hfragment]

/-- What a body leaves of the condition on what follows: only its colon counts. -/
theorem EndsBefore.congr {b b' : Text} (h : a.EndsBefore (':' :: b)) : a.EndsBefore (':' :: b') where
  scheme := h.scheme
  noScheme := by
    intro hs s r heq
    rcases List.append_eq_append_iff.1 heq with ⟨t, rfl, ht⟩ | ⟨t, hr, ht⟩
    · -- the colon that is found is the one before the body, or stands behind it
      cases t with
      | nil => simpa using h.noScheme hs a.render b (by simp)
      | cons c t =>
        obtain rfl : ':' = c := (List.cons.inj ht).1
        exact Or.inr ⟨':', by simp, by decide⟩
    · cases t with
      | nil => exact h.noScheme hs s b (by simp [hr])
      | cons c t =>
        obtain rfl : ':' = c := (List.cons.inj ht).1
        exact h.noScheme hs s (t ++ .char ':' :: b) (by simp [hr])
  authority := by
    intro s hs
    refine ⟨(h.authority s hs).1, fun c hc => (h.authority s hs).2 c ?_⟩
    cases hp : a.fromPath <;> simpa [hp] using hc
  noAuthority := by
    intro hs hp
    refine h.noAuthority hs ?_
    rcases hp with ⟨r, hr⟩
    cases hp : a.fromPath with
    | nil => simp [hp, Text.of] at hr
    | cons c t =>
      cases t with
      | nil => simp [hp, Text.of] at hr
      | cons d t =>
        simp only [hp, Text.of, String.reduceToList, Text.ofChars_cons, List.cons_append, List.cons.injEq] at hr
        obtain ⟨rfl, rfl, -⟩ := hr
        exact ⟨t ++ .char ':' :: b, rfl⟩
  path := h.path
  query := h.query
  fragment := fun s hs => absurd (h.fragment s hs).2 (by simp)

end Address

/-! ## Address, embedded fragment and body -/

/-- A body behind its colon, if there is one. -/
def bodyPart (b : Option Text) : Text := Address.marked [':'] b

theorem Located.read_render {a : Address} {b : Option Text} (h : a.EndsBefore (bodyPart b))
    (hb : ∀ t ∈ b, .char '\n' ∉ t) : Located.read (a.render ++ bodyPart b) = ⟨a, b⟩ := by
  have hhead : ∀ c ∈ (bodyPart b).head?, c = ':' := by
    intro c hc
    cases b with
    | none => simp [bodyPart, Address.marked] at hc
    | some t => simpa [bodyPart, Address.marked, eq_comm] using hc
  have hpart : Address.part [':'] ['\n'] (bodyPart b) = (b, []) := by
    have := Address.part_marked [':'] ['\n'] (r := []) (p := b) (by simp) fun t ht =>
      ⟨fun c hc hcn => hb t ht (by simpa [List.mem_singleton.1 hcn] using hc), by simp⟩
    simpa [bodyPart] using this
  unfold Located.read
  rw [Address.read_render h hhead]
  simp only [hpart]

namespace Target

theorem takeFragment_plain {url : Text} (h : url.getLast? ≠ some (.char '}')) : takeFragment url = .ok (url, none) := by
  rw [takeFragment, if_neg h]

theorem takeFragment_render {url : Text} {hs : List Header} (ho : .char '{' ∉ url) (hc : .char '}' ∉ url)
    (hi : .char '}' ∉ Header.inner hs) : takeFragment (url ++ Header.render hs) = .ok (url, some (Header.inner hs)) := by
  have hcut : (url ++ Header.render hs).cut? '}' = some (url ++ .char '{' :: Header.inner hs, []) := by
    have hmem : .char '}' ∉ url ++ .char '{' :: Header.inner hs := by simp [hc, hi]
    simpa [Header.render_eq] using Text.cut?_append (r := []) hmem
  have hlast : (url ++ Header.render hs).getLast? = some (.char '}') := by
    simp [Header.render_eq, List.getLast?_append, List.getLast?_cons]
  rw [takeFragment, if_pos hlast, hcut]
  simp only [Text.cut?_append ho]

/-- **The address, the headers embedded in it and the body come back.** -/
theorem read_render {url : Text} {hs : List Header} {b : Option Text} {a : Address} (hne : url ≠ [])
    (ha : a.render = url ++ Header.optional hs) (hends : a.EndsBefore (bodyPart b)) (hb : ∀ t ∈ b, .char '\n' ∉ t)
    (hplain : hs = [] → url.getLast? ≠ some (.char '}')) (hbare : hs ≠ [] → .char '{' ∉ url ∧ .char '}' ∉ url)
    (hi : .char '}' ∉ Header.inner hs) :
    Target.read (url ++ Header.optional hs ++ bodyPart b) =
      .ok ⟨url, if hs = [] then none else some (Header.inner hs), b⟩ := by
  have htake : takeFragment a.render = .ok (url, if hs = [] then none else some (Header.inner hs)) := by
    rw [ha, Header.optional]
    by_cases hs0 : hs = []
    · simpa [hs0] using takeFragment_plain (hplain hs0)
    · simpa [hs0] using takeFragment_render (hbare hs0).1 (hbare hs0).2 hi
  have hempty : url.isEmpty = false := by simpa using hne
  unfold Target.read
  rw [← ha, Located.read_render hends hb]
  simp only [htake, bind, Except.bind, hempty]
  rfl

end Target

end RequestRules
