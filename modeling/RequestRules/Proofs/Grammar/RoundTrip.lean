import RequestRules.Proofs.Grammar.Written

/-!
# Rules come back

Reading undoes writing on the whole language: `Segment.readAll_renderAll`.  It is put together from one statement for
each cut that reading makes.

* `Direction.scan_renderAll` — a bracket closes where its segment was closed;
* `Inbound.read_render` — the URL of a rule for polling is as short and its header fragment as long as they were;
* `Outbound.read_render` — command, method, headers, URL and payload are told apart where they were joined.
-/

namespace RequestRules

/-! ## Runs before a colon -/

namespace Text

variable {p : CodePoint → Bool}

/-- No colon of a text without runs has one before the next colon, whatever follows the text. -/
theorem NoRun.run?_eq_none {u l s : Text} (h : u.NoRun p) (hu : u = l ++ .char ':' :: s) (hp : p ':' = false) (t : Text) :
    run? p ':' (s ++ t) = none := by
  have hhead := h s ⟨l, hu.symm⟩
  -- some character of `s` is outside of `p`, or the colon behind it would end a run
  have hd : s.dropWhile p ≠ [] := by
    intro hd
    rw [List.dropWhile_append, hd] at hhead
    simp [hp] at hhead
  obtain ⟨c, r, hc⟩ := List.exists_cons_of_ne_nil hd
  have happend : ∀ t, (s ++ t).dropWhile p = c :: (r ++ t) := by
    intro t
    rw [List.dropWhile_append, hc]
    simp
  have hcc : c ≠ ':' := by simpa [happend] using hhead
  unfold run?
  rw [List.span_eq_takeWhile_dropWhile, happend]
  simp [hcc]

end Text

/-! ## Rules for polling -/

namespace Inbound

theorem escape_cons (c : CodePoint) (t : Text) :
    escape (c :: t) = (if c = '"' then [.char '\\', .char '"'] else [c]) ++ escape t := rfl

/-- Putting backslashes before double quotes is undone. -/
theorem replace_escape (t : Text) : (escape t).replace ['\\', '"'] ['"'] = t :=
  Text.replace_flatMap (by decide) rfl t

theorem noPair_escape {p q : CodePoint → Bool} (hp : p '\\' = false) (hq : q '\\' = false) {t : Text}
    (h : t.NoPair p q) : (escape t).NoPair p q := by
  induction t with
  | nil => exact List.IsChain.nil
  | cons c t ih =>
    have iht := ih h.tail
    rw [escape_cons]
    -- a backslash before the next character ends no pair, and begins none
    have hnext : ∀ c', p c' = p c → Text.NoPair p q (c' :: escape t) := by
      intro c' hc'
      cases t with
      | nil => exact List.IsChain.singleton _
      | cons d t =>
        rw [escape_cons] at iht ⊢
        by_cases hd : d = '"'
        · rw [if_pos hd] at iht ⊢
          exact Text.noPair_cons_cons.2 ⟨by simp [hq], iht⟩
        · rw [if_neg hd] at iht ⊢
          refine Text.noPair_cons_cons.2 ⟨?_, iht⟩
          rw [hc']
          exact (Text.noPair_cons_cons.1 h).1
    split
    · next hc => exact Text.noPair_cons_cons.2 ⟨by simp [hp], hnext '"' (by rw [hc])⟩
    · exact hnext c rfl

theorem tail?_digits {digits : Text} (hne : digits ≠ []) (hd : ∀ c ∈ digits, c.isDigit = true) (t : Text) :
    tail? (':' :: (digits ++ .char ':' :: t)) = some (digits, t) := by
  have hslash : (Text.of "//").isPrefixOf (digits ++ .char ':' :: t) = false := by
    cases digits with
    | nil => exact absurd rfl hne
    | cons c digits =>
      have hc : c ≠ '/' := by
        rintro rfl
        exact absurd (hd '/' (by simp)) (by decide)
      have h2 : ('/' == c) = false := by simpa using Ne.symm hc
      show (['/', '/'] : Text).isPrefixOf (c :: (digits ++ .char ':' :: t)) = false
      rw [List.isPrefixOf_cons_cons, h2, Bool.false_and]
  show (if (Text.of "//").isPrefixOf (digits ++ .char ':' :: t) = true then none
    else Text.run? CodePoint.isDigit ':' (digits ++ .char ':' :: t)) = _
  rw [hslash, if_neg (by simp), Text.run?_append hd (by decide)]

theorem longestHeader?_eq_none {t : Text} (h : t.NoPair (· == .char '}') (· == .char ':')) : longestHeader? t = none := by
  induction t with
  | nil => rfl
  | cons c t ih =>
    simp only [longestHeader?, ih h.tail]
    by_cases hc : c = '}'
    · have ht : tail? t = none := by
        cases t with
        | nil => rfl
        | cons d t =>
          have hd : d ≠ ':' := fun hd => (Text.noPair_cons_cons.1 h).1 (by simp [hc, hd])
          unfold tail?
          split
          · next heq => exact absurd (List.cons.inj heq).1 hd
          · rfl
      simp [ht]
    · simp [hc]

/-- A header fragment goes on to the last place where one can end. -/
theorem longestHeader?_append {t : Text} {tail : Text × Text} (hlast : longestHeader? t = none)
    (htail : tail? t = some tail) (s : Text) : longestHeader? (s ++ .char '}' :: t) = some (s ++ [.char '}'], tail) := by
  induction s with
  | nil => simp [longestHeader?, hlast, htail]
  | cons c s ih => simp [longestHeader?, ih]

/-- A URL without an opening brace and without an interval of its own is passed over. -/
theorem parts?_append {u : Text} (hb : .char '{' ∉ u) (hc : u.NoRun CodePoint.isDigit) (t : Text) :
    parts? (u ++ t) = (parts? t).map fun p => { p with url := u ++ p.url } := by
  have hmain : ∀ l s, u = l ++ s → parts? (s ++ t) = (parts? t).map fun p => { p with url := s ++ p.url } := by
    intro l s
    induction s generalizing l with
    | nil =>
      intro _
      simp
    | cons c s ih =>
      intro hu
      have hcb : c ≠ '{' := fun h => hb (by simp [hu, h])
      have htail : tail? (c :: (s ++ t)) = none := by
        by_cases hcc : c = ':'
        · subst hcc
          have := hc.run?_eq_none hu (by decide) t
          simp [tail?, this]
        · unfold tail?
          split
          · next heq => exact absurd (List.cons.inj heq).1 hcc
          · rfl
      have := ih (l ++ [c]) (by simp [hu])
      simp only [List.cons_append, parts?, if_neg hcb, htail, this, Option.map_map]
      rfl
  exact hmain [] u rfl

theorem parts?_render {s : Inbound} (h : s.Admissible) :
    parts? s.render = some ⟨s.url, if s.headers = [] then none else some (Header.render s.headers),
      Numeral.ofNat s.interval, escape s.transformation⟩ := by
  have hdigit : ∀ c ∈ Numeral.ofNat s.interval, c.isDigit = true := fun c => Numeral.isDigit_of_mem_ofNat
  have htail := tail?_digits (Numeral.ofNat_ne_nil s.interval) hdigit (escape s.transformation)
  set tail := .char ':' :: (Numeral.ofNat s.interval ++ .char ':' :: escape s.transformation) with htaileq
  have hrender : s.render = s.url ++ (Header.optional s.headers ++ tail) := rfl
  by_cases hs : s.headers = []
  · have hparts : parts? tail = some ⟨[], none, Numeral.ofNat s.interval, escape s.transformation⟩ := by
      rw [htaileq] at htail ⊢
      simp [parts?, htail]
    rw [hrender, Header.optional, if_pos hs, List.nil_append,
      parts?_append h.url_noBrace h.url_noInterval, hparts]
    simp [hs]
  · have hpair : Text.NoPair (· == .char '}') (· == .char ':') tail := by
      have ht := noPair_escape (p := (· == .char '}')) (q := (· == .char ':')) (by decide) (by decide) (h.transformation hs)
      have hfront : ∀ c ∈ CodePoint.char ':' :: (Numeral.ofNat s.interval ++ [.char ':']), (c == '}') = false := by
        intro c hc
        simp only [List.mem_cons, List.mem_append, List.not_mem_nil, or_false] at hc
        rcases hc with rfl | hc | rfl
        · decide
        · rw [beq_eq_false_iff_ne]
          rintro rfl
          exact absurd (hdigit '}' hc) (by decide)
        · decide
      simpa [htaileq] using Text.NoPair.append_left hfront ht
    have hlong := longestHeader?_append (longestHeader?_eq_none hpair) htail (Header.inner s.headers)
    have hparts : parts? (Header.render s.headers ++ tail) = some ⟨[], some (Header.render s.headers),
        Numeral.ofNat s.interval, escape s.transformation⟩ := by
      simp [Header.render_eq, parts?, hlong]
    rw [hrender, Header.optional, if_neg hs,
      parts?_append h.url_noBrace h.url_noInterval, hparts]
    simp [hs]

/-- **A rule for polling comes back.** -/
theorem read_render {s : Inbound} (h : s.Admissible) : Inbound.read s.render = .ok s := by
  have hline : List.contains s.render '\n' = false := by simpa using h.enclosable.1
  have hdigits : (Numeral.ofNat s.interval).isEmpty = false := by simpa using Numeral.ofNat_ne_nil s.interval
  have hlimit : ¬ Numeral.limit < (Numeral.ofNat s.interval).length := Nat.not_lt.2 h.interval
  have hurl : s.url.replace ['\\', '"'] [] = s.url := Text.replace_eq_self h.url_unescaped
  have hheaders : Header.parseOption (if s.headers = [] then none else some (Header.render s.headers)) = s.headers := by
    by_cases hs : s.headers = []
    · simp [hs, Header.parseOption]
    · rw [if_neg hs]
      exact Header.parse_render h.headers
  unfold Inbound.read
  rw [hline, if_neg (by simp), parts?_render h]
  simp only [hdigits, Bool.false_eq_true, if_false, if_neg hlimit, hheaders, Numeral.value_ofNat]
  show Except.ok (ε := SegmentError) (⟨s.url.replace ['\\', '"'] [], s.headers, s.interval,
    (escape s.transformation).replace ['\\', '"'] ['"']⟩ : Inbound) = .ok s
  rw [hurl, replace_escape]

end Inbound

/-! ## Rules for sending -/

namespace Outbound

/-- A command without a method of its own is passed over. -/
theorem parts?_append {k m : Text} (hk : k.NoRun CodePoint.isUpper) (hm : ∀ c ∈ m, c.isUpper = true) (r : Text) :
    parts? (k ++ .char ':' :: (m ++ .char ':' :: r)) = some (k, m, r) := by
  have hmain : ∀ l s, k = l ++ s → parts? (s ++ .char ':' :: (m ++ .char ':' :: r)) = some (s, m, r) := by
    intro l s
    induction s generalizing l with
    | nil =>
      intro _
      have hm' : method? (m ++ .char ':' :: r) = some (m, r) := Text.run?_append hm (by decide)
      simp [parts?, hm']
    | cons c s ih =>
      intro hs
      have hmethod : (if c = ':' then method? (s ++ .char ':' :: (m ++ .char ':' :: r)) else none) = none := by
        by_cases hc : c = ':'
        · subst hc
          rw [if_pos rfl]
          exact hk.run?_eq_none hs (by decide) _
        · rw [if_neg hc]
      have := ih (l ++ [c]) (by simp [hs])
      simp [parts?, hmethod, this]
  exact hmain [] k rfl

theorem takeLeading_render {hs : List Header} (hw : ∀ h ∈ hs, h.Writable) (hc : .char '}' ∉ Header.inner hs) (t : Text) :
    takeLeading (Header.render hs ++ t) = (hs, t) := by
  have hcut : Text.cut? '}' (Header.render hs ++ t) = some (.char '{' :: Header.inner hs, t) := by
    have hmem : .char '}' ∉ .char '{' :: Header.inner hs := by simp [hc]
    simpa [Header.render_eq] using Text.cut?_append (r := t) hmem
  unfold takeLeading
  rw [if_pos (by simp [Header.render_eq]), hcut]
  show (Header.parse (Header.render hs), t) = (hs, t)
  rw [Header.parse_render hw]

theorem takeLeading_none {t : Text} (h : t.head? = some (.char '{') → .char '}' ∉ t) : takeLeading t = ([], t) := by
  unfold takeLeading
  split
  · next hh => rw [Text.cut?_eq_none (h hh)]
  · rfl

namespace Draft

variable {d : Draft}

def readPayload (d : Draft) : Option Text := d.payload.map fun t => t.replace ['\\', '"'] []

theorem Admissible.not_mem_leading (h : d.Admissible) : .char '}' ∉ Header.inner d.leading :=
  Header.not_mem_inner (by decide) (by decide) fun x hx => (h.leading x hx).2

theorem Admissible.not_mem_embedded (h : d.Admissible) : .char '}' ∉ Header.inner d.embedded :=
  Header.not_mem_inner (by decide) (by decide) fun x hx => (h.embedded x hx).2

theorem Admissible.replace_rest (h : d.Admissible) :
    (Header.optional d.leading ++ d.address ++ bodyPart d.payload).replace ['\\', '"'] [] =
      Header.optional d.leading ++ d.address ++ bodyPart d.readPayload := by
  unfold readPayload
  cases d.payload with
  | none => simpa [bodyPart, Address.marked] using Text.replace_eq_self h.unescaped
  | some t =>
    have hcolon : Text.replace (':' :: t) ['\\', '"'] [] = .char ':' :: t.replace ['\\', '"'] [] :=
      Text.replaceFrom_cons (by simp)
    show Text.replace (Header.optional d.leading ++ d.address ++ .char ':' :: t) ['\\', '"'] [] = _
    rw [Text.replace_append (by decide), hcolon, Text.replace_eq_self h.unescaped]
    rfl

theorem Admissible.takeLeading_rest (h : d.Admissible) :
    takeLeading (Header.optional d.leading ++ d.address ++ bodyPart d.readPayload) =
      (d.leading, d.address ++ bodyPart d.readPayload) := by
  by_cases hg : d.leading = []
  · have hempty : Header.optional d.leading = [] := if_pos hg
    rw [hempty, List.nil_append, hg]
    refine takeLeading_none fun hh hc => ?_
    have hurl : d.url.head? = some (.char '{') := by
      obtain ⟨c, u, hu⟩ := List.exists_cons_of_ne_nil h.url
      simpa [address, hu] using hh
    -- reading the payload takes characters away only
    refine h.noLeading hg hurl ?_
    rcases List.mem_append.1 hc with hc | hc
    · exact List.mem_append_left _ hc
    · refine List.mem_append_right _ ?_
      unfold readPayload at hc
      cases hp : d.payload with
      | none => simp [hp, bodyPart, Address.marked] at hc
      | some t =>
        have hct : .char '}' ∈ t.replace ['\\', '"'] [] := by simpa [hp, bodyPart, Address.marked] using hc
        simp [bodyPart, Address.marked, Text.mem_of_mem_replace hct]
  · have hrender : Header.optional d.leading = Header.render d.leading := if_neg hg
    rw [hrender, List.append_assoc]
    exact takeLeading_render (fun x hx => (h.leading x hx).1) h.not_mem_leading _

theorem Admissible.read_target (h : d.Admissible) :
    Target.read (d.address ++ bodyPart d.readPayload) =
      .ok ⟨d.url, if d.embedded = [] then none else some (Header.inner d.embedded), d.readPayload⟩ := by
  obtain ⟨a, ha, hends⟩ := h.address_ends
  have hends' : a.EndsBefore (bodyPart d.readPayload) := by
    unfold readPayload
    cases hp : d.payload with
    | none => rwa [hp] at hends
    | some t =>
      rw [hp] at hends
      exact hends.congr
  have hline : ∀ t ∈ d.readPayload, .char '\n' ∉ t := by
    intro t ht hn
    obtain ⟨t', ht', rfl⟩ := Option.map_eq_some_iff.1 ht
    have hn' := Text.mem_of_mem_replace hn
    refine h.enclosable.1 ?_
    simp [render, bodyPart, ht', Address.marked, hn']
  exact Target.read_render h.url ha hends' hline h.url_plain h.url_bare h.not_mem_embedded

end Draft

/-- **A rule for sending comes back.** -/
theorem read_render {d : Draft} (h : d.Admissible) : Outbound.read d.render = .ok d.rule := by
  have hline : List.contains d.render '\n' = false := by simpa using h.enclosable.1
  have hheaders : Header.parseOption (if d.embedded = [] then none else some (Header.inner d.embedded)) = d.embedded := by
    by_cases he : d.embedded = []
    · simp [he, Header.parseOption]
    · rw [if_neg he]
      exact Header.parse_inner (fun x hx => (h.embedded x hx).1) (Header.head?_inner h.embedded_head) h.not_mem_embedded
  have hsent : (if d.method = post then d.readPayload.map Payload.classify else none) = d.sent := by
    unfold Draft.sent Draft.readPayload
    by_cases hm : d.method = post
    · cases hp : d.payload with
      | none => simp
      | some t => simp [Text.replace_eq_self (h.payload_unescaped hm t hp)]
    · simp [hm]
  have hquote : Text.of "\\\"" = [.char '\\', .char '"'] := rfl
  unfold Outbound.read
  rw [hline, if_neg (by simp), Draft.render, parts?_append h.command h.method, hquote]
  simp only [h.replace_rest, h.takeLeading_rest, h.read_target, bind, Except.bind, hheaders, hsent]
  rfl

end Outbound

/-! ## Brackets -/

namespace Direction

def bracket (x : Direction × Text) : Text := x.1.mark :: '[' :: (x.2 ++ [.char ']'])

theorem isMark_mark (d : Direction) : isMark d.mark = true := by cases d <;> rfl

theorem ofText_mark (d : Direction) : ofText [d.mark] = .ok d := by cases d <;> rfl

theorem isMark_iff {c : CodePoint} : isMark c = true ↔ c = '<' ∨ c = '>' := by simp [isMark]

theorem exists_mark {c : CodePoint} (h : isMark c = true) : ∃ d, c = mark d :=
  (isMark_iff.1 h).elim (fun hc => ⟨inbound, hc⟩) fun hc => ⟨outbound, hc⟩

/-- A bracket closes behind a text that can stand in brackets, and nowhere before. -/
theorem closing?_append {i r : Text} (hi : i.Enclosable) (hr : ∀ c ∈ r.head?, isAsciiBlank c = true) :
    closing? (i ++ .char ']' :: r) = some (i, r.tail) := by
  obtain ⟨hline, hpair⟩ := hi
  induction i with
  | nil =>
    cases r with
    | nil => rfl
    | cons b r =>
      have hb : isAsciiBlank b = true := hr b rfl
      simp [closing?, hb]
  | cons c i ih =>
    simp only [List.mem_cons, not_or] at hline
    have hc : c ≠ '\n' := fun e => hline.1 e.symm
    have ih := ih hline.2 hpair.tail
    by_cases hcb : c = ']'
    · -- the next character is no white space, so the bracket does not close here
      subst hcb
      obtain ⟨d, t, hd, hdt⟩ : ∃ d t, isAsciiBlank d = false ∧ i ++ .char ']' :: r = d :: t := by
        cases i with
        | nil => exact ⟨']', r, by decide, rfl⟩
        | cons d i =>
          have := (Text.noPair_cons_cons.1 hpair).1
          exact ⟨d, i ++ .char ']' :: r, by simpa using this, rfl⟩
      rw [List.cons_append, hdt, closing?, if_neg (by decide), if_pos rfl]
      simp only [hd, Bool.false_eq_true, if_false]
      rw [← hdt, ih]
      rfl
    · simp [closing?, hc, hcb, ih]

/-- A segment at the front is taken off. -/
theorem scan_of_opening? {t i r : Text} {c : CodePoint} (h : opening? t = some (c, i, r)) :
    scan t = do
      let d ← ofText [c]
      let ds ← scan r
      return (d, i) :: ds := by
  rw [scan]
  split
  · next h' =>
    rw [h] at h'
    cases h'
    rfl
  · next h' =>
    rw [h] at h'
    exact absurd h' (by simp)

/-- A bracketed text is taken off the front, with one white space behind it. -/
theorem scan_append {x : Direction × Text} {r : Text} (hx : x.2.Enclosable)
    (hr : ∀ c ∈ r.head?, isAsciiBlank c = true) : scan (bracket x ++ r) = (scan r.tail).map (x :: ·) := by
  have hopen : opening? (bracket x ++ r) = some (x.1.mark, x.2, r.tail) := by
    have := closing?_append hx hr
    simp [bracket, opening?, isMark_mark, this]
  rw [scan_of_opening? hopen, ofText_mark]
  cases scan r.tail <;> rfl

theorem scan_join {xs : List (Direction × Text)} (h : ∀ x ∈ xs, x.2.Enclosable) :
    scan (Text.join [' '] (xs.map bracket)) = .ok xs := by
  induction xs with
  | nil =>
    rw [List.map_nil, Text.join, scan]
    rfl
  | cons x xs ih =>
    have hx := h x (by simp)
    have ih := ih fun y hy => h y (List.mem_cons_of_mem _ hy)
    cases xs with
    | nil =>
      have := scan_append (r := []) hx (by simp)
      rw [List.append_nil] at this
      rw [List.map_singleton, Text.join, this, List.tail_nil, show scan [] = .ok [] from ih]
      rfl
    | cons y ys =>
      have hblank : ∀ c ∈ (CodePoint.char ' ' :: Text.join [' '] ((y :: ys).map bracket)).head?, isAsciiBlank c = true := by
        rintro c ⟨⟩
        decide
      have := scan_append hx hblank
      rw [List.map_cons, List.map_cons, Text.join_cons_cons, List.append_assoc, List.singleton_append]
      rw [List.map_cons] at this ih
      rw [this, List.tail_cons, ih]
      rfl

/-- Bracketed texts on one line, one after the other, are a configuration text. -/
theorem isSequence_join {xs : List (Direction × Text)} (hne : xs ≠ []) (h : ∀ x ∈ xs, x.2.Enclosable) :
    isSequence (Text.join [' '] (xs.map bracket)) = true := by
  have hshape : ∃ m t, isMark m = true ∧ .char '\n' ∉ t ∧
      Text.join [' '] (xs.map bracket) = m :: '[' :: (t ++ [.char ']']) := by
    induction xs with
    | nil => exact absurd rfl hne
    | cons x xs ih =>
      have hx := (h x (by simp)).1
      cases xs with
      | nil => exact ⟨x.1.mark, x.2, isMark_mark _, hx, rfl⟩
      | cons y ys =>
        obtain ⟨m, t, hm, ht, heq⟩ := ih (by simp) fun z hz => h z (List.mem_cons_of_mem _ hz)
        have hmn : .char '\n' ≠ m := by
          rintro rfl
          exact absurd hm (by decide)
        refine ⟨x.1.mark, x.2 ++ .char ']' :: .char ' ' :: m :: .char '[' :: t, isMark_mark _, by simp [hx, ht, hmn], ?_⟩
        rw [List.map_cons] at heq
        rw [List.map_cons, List.map_cons, Text.join_cons_cons, heq]
        simp [bracket]
  obtain ⟨m, t, hm, ht, heq⟩ := hshape
  simp [heq, isSequence, hm, ht]

theorem segments_join {xs : List (Direction × Text)} (hne : xs ≠ []) (h : ∀ x ∈ xs, x.2.Enclosable) :
    segments (Text.join [' '] (xs.map bracket)) = .ok xs := by
  rw [segments, if_pos (isSequence_join hne h), scan_join h]

end Direction

/-! ## Whole configuration texts -/

namespace Segment

theorem Draft.Admissible.enclosable {d : Draft} (h : d.Admissible) : d.inner.Enclosable := by
  cases d with
  | inbound s => exact Inbound.Admissible.enclosable h
  | outbound d => exact Outbound.Draft.Admissible.enclosable h

theorem Draft.Admissible.read_inner {d : Draft} (h : d.Admissible) : Segment.read (d.direction, d.inner) = .ok d.rule := by
  cases d with
  | inbound s =>
    show (Inbound.read s.render).map Segment.inbound = _
    rw [Inbound.read_render h]
    rfl
  | outbound d =>
    show ((Outbound.read d.render).mapError SegmentError.grammar).map Segment.outbound = _
    rw [Outbound.read_render h]
    rfl

theorem mapM_read {ds : List Draft} (h : ∀ d ∈ ds, d.Admissible) :
    (ds.map fun d => (d.direction, d.inner)).mapM Segment.read = .ok (ds.map Draft.rule) := by
  induction ds with
  | nil => rfl
  | cons d ds ih =>
    rw [List.map_cons, List.mapM_cons, (h d (by simp)).read_inner, ih fun e he => h e (List.mem_cons_of_mem _ he)]
    rfl

/-- **Reading undoes writing** for all sequences of rules that can be written. -/
theorem readAll_renderAll (ds : List Draft) (hne : ds ≠ []) (h : ∀ d ∈ ds, d.Admissible) :
    readAll (renderAll ds) = .ok (ds.map Draft.rule) := by
  have hsegments : Direction.segments (renderAll ds) = .ok (ds.map fun d => (d.direction, d.inner)) := by
    have hne' : ds.map (fun d => (d.direction, d.inner)) ≠ [] := by simpa using hne
    have hall : ∀ x ∈ ds.map (fun d => (d.direction, d.inner)), x.2.Enclosable := by
      intro x hx
      obtain ⟨d, hd, rfl⟩ := List.mem_map.1 hx
      exact (h d hd).enclosable
    have hjoin := Direction.segments_join hne' hall
    rw [List.map_map] at hjoin
    exact hjoin
  rw [readAll, hsegments]
  exact mapM_read h

/-- The rules of a light and of a weather station, with headers in every place, a port, a call and double quotes. -/
theorem readAll_light_weather :
    let light : Outbound.Draft := {
      command := .of "ON", method := .of "POST", leading := [(.of "Key", .of "1=2")]
      url := .of "http://x.org:80/l?s=on", embedded := [(.of "A", .of "b"), (.of "A", [])]
      payload := some (.of "REGEX(:(.*))") }
    let weather : Inbound := {
      url := .of "http://x.org:80/w", headers := [(.of "\x7bT", .of "\x7d:5")], interval := 60
      transformation := .of "say(\"]\")" }
    (light.Admissible ∧ weather.Admissible) ∧
      readAll (.of (">[ON:POST:\x7bKey=1=2\x7dhttp://x.org:80/l?s=on\x7bA=b&A=\x7d:REGEX(:(.*))] " ++
        "<[http://x.org:80/w\x7b\x7bT=\x7d:5\x7d:60:say(\\\"]\\\")]")) =
      .ok [.outbound light.rule, .inbound weather] := by
  intro light weather
  have hlight : light.Admissible := by
    constructor
    case address_ends =>
      refine ⟨⟨some (.of "http"), some (.of "x.org:80"), .of "/l", some (.of "s=on\x7bA=b&A=\x7d"), none⟩, by decide, ?_⟩
      constructor
      case noScheme => exact nofun
      case noAuthority => exact nofun
      case fragment => exact nofun
      case scheme =>
        rintro s ⟨⟩
        exact ⟨by decide, Text.forall_mem_of_all (by decide)⟩
      case authority =>
        rintro s ⟨⟩
        refine ⟨Text.forall_mem_of_all (by decide), ?_⟩
        rintro c ⟨⟩
        decide
      case path => exact Text.forall_mem_of_all (by decide)
      case query =>
        rintro s ⟨⟩
        exact Text.forall_mem_of_all (by decide)
    case method => exact Text.forall_mem_of_all (by decide)
    case embedded_head =>
      rintro h ⟨⟩
      decide
    all_goals decide +kernel
  have hweather : weather.Admissible := by
    constructor <;> decide +kernel
  have hall : ∀ d ∈ [Draft.outbound light, .inbound weather], d.Admissible := by
    simp only [List.mem_cons, List.not_mem_nil, or_false, forall_eq_or_imp, forall_eq]
    exact ⟨hlight, hweather⟩
  have hread := readAll_renderAll [.outbound light, .inbound weather] (by simp) hall
  have hrender : renderAll [.outbound light, .inbound weather] =
      .of (">[ON:POST:\x7bKey=1=2\x7dhttp://x.org:80/l?s=on\x7bA=b&A=\x7d:REGEX(:(.*))] " ++
        "<[http://x.org:80/w\x7b\x7bT=\x7d:5\x7d:60:say(\\\"]\\\")]") := by
    decide +kernel
  rw [hrender] at hread
  exact ⟨⟨hlight, hweather⟩, hread⟩

end Segment

end RequestRules
