import RequestRules.Proofs.Grammar.Parts

/-!
# The first of all ways to cut a rule for polling

A text on one line can be cut into a URL, headers, an interval and a transformation in several ways (`Parts.Writes`), since
braces and colons may stand in all of them.  `Parts.Before` is the order of the ways: a shorter URL, then headers before
none, then longer headers.

* `writes_of_parts?` — what is read is one of the ways, and before all the others;
* `exists_parts?` — something is read if there is a way;
* `match?_eq_some_iff`, `match?_eq_none_iff` — so the first way is read, and nothing exactly if there is none.
-/

namespace RequestRules

namespace Inbound

def match? (t : Text) : Option Parts := if t.contains '\n' then none else parts? t

/-- The parts are a way to write the text, which is on one line. -/
structure Parts.Writes (p : Parts) (t : Text) : Prop where
  text : t = p.url ++ (p.header.getD [] ++ .char ':' :: (p.digits ++ .char ':' :: p.transformation))
  header : ∀ h ∈ p.header, ∃ inner, h = .char '{' :: (inner ++ [.char '}'])
  digits : ∀ c ∈ p.digits, c.isDigit = true
  line : .char '\n' ∉ t

/-- The parts are preferred to others. -/
inductive Parts.Before (p q : Parts) : Prop
  | url (h : p.url.length < q.url.length)
  | headed (hurl : p.url.length = q.url.length) (hp : p.header ≠ none) (hq : q.header = none)
  | longer (hurl : p.url.length = q.url.length) {h h' : Text} (hp : p.header = some h) (hq : q.header = some h')
      (hlt : h'.length < h.length)

theorem Parts.Writes.tail?_eq {p : Parts} {t : Text} (h : p.Writes t) :
    tail? (':' :: (p.digits ++ .char ':' :: p.transformation)) = some (p.digits, p.transformation) :=
  tail?_eq_some.2 ⟨rfl, h.digits⟩

theorem Parts.Before.asymm {p q : Parts} (h : p.Before q) : ¬ q.Before p := by
  intro h'
  cases h with
  | url hlt => cases h' <;> omega
  | headed hurl hp hq =>
    cases h' with
    | url hlt' => omega
    | headed _ hq' _ => exact hq' hq
    | longer _ hq' _ _ => exact absurd (hq.symm.trans hq') (by simp)
  | longer hurl hp hq hlt =>
    cases h' with
    | url hlt' => omega
    | headed _ _ hp' => exact absurd (hp'.symm.trans hp) (by simp)
    | longer _ hq' hp' hlt' =>
      rw [hp] at hp'
      rw [hq] at hq'
      cases hp'
      cases hq'
      omega

/-! ## At the front -/

/-- The parts at the very front of a text: headers and a tail, or a tail. -/
def front? (t : Text) : Option Parts :=
  match (if t.head? = some (.char '{') then longestHeader? t.tail else none) with
  | some (h, digits, transformation) => some ⟨[], some ('{' :: h), digits, transformation⟩
  | none => (tail? t).map fun x => ⟨[], none, x.1, x.2⟩

theorem front?_url {t : Text} {p : Parts} (h : front? t = some p) : p.url = [] := by
  unfold front? at h
  split at h
  · cases h
    rfl
  · obtain ⟨x, _, rfl⟩ := Option.map_eq_some_iff.1 h
    rfl

theorem parts?_cons (c : CodePoint) (t : Text) :
    parts? (c :: t) = (front? (c :: t)).or ((parts? t).map fun p => { p with url := c :: p.url }) := by
  rw [parts?, front?]
  by_cases hc : c = '{'
  · subst hc
    rw [if_pos rfl, if_pos (show (.char '{' :: t).head? = some (.char '{') from rfl), List.tail_cons]
    cases longestHeader? t with
    | some x => rfl
    | none => cases tail? ('{' :: t) <;> rfl
  · rw [if_neg hc, if_neg (by simpa using hc)]
    cases tail? (c :: t) <;> rfl

/-- No headers before a tail are longer. -/
theorem length_le_longestHeader? {inner r h : Text} {x tail : Text × Text}
    (hlong : longestHeader? (inner ++ .char '}' :: r) = some (h, tail)) (hr : tail? r = some x) :
    inner.length + 1 ≤ h.length := by
  induction inner generalizing h with
  | nil =>
    obtain ⟨i, _, rfl, _, _⟩ := longestHeader?_eq_some hlong
    simp
  | cons c inner ih =>
    obtain ⟨⟨h', tail'⟩, hrest⟩ := exists_longestHeader? ⟨x, hr⟩ inner
    rw [List.cons_append, longestHeader?, hrest] at hlong
    cases hlong
    exact Nat.succ_le_succ (ih hrest)

/-- What is cut off the front of a text is before all other ways to write it. -/
theorem writes_of_front? {t : Text} {p : Parts} (ht : .char '\n' ∉ t) (h : front? t = some p) :
    p.Writes t ∧ ∀ q : Parts, q.Writes t → q = p ∨ p.Before q := by
  have hurl := front?_url h
  unfold front? at h
  split at h
  · next header digits transformation hlong =>
    cases h
    split_ifs at hlong with hhead
    obtain ⟨t, rfl⟩ := List.head?_eq_some_iff.1 hhead
    rw [List.tail_cons] at hlong
    obtain ⟨inner, r, hheader, htext, hr⟩ := longestHeader?_eq_some hlong
    obtain ⟨hcut, hdigits⟩ := tail?_eq_some.1 hr
    refine ⟨⟨by rw [htext, hcut]; rfl, by rintro _ ⟨⟩; exact ⟨inner, by rw [hheader]⟩, hdigits, ht⟩, fun q hq => ?_⟩
    obtain ⟨qurl, qheader, qdigits, qtransformation⟩ := q
    have hqr := hq.tail?_eq
    obtain ⟨hqtext, hqheader, _, _⟩ := hq
    cases qurl with
    | cons d url => exact .inr (.url (Nat.zero_lt_succ _))
    | nil =>
      cases qheader with
      | none => exact .inr (.headed rfl (by simp) rfl)
      | some qheader =>
        -- headers of the same length are the same, and longer ones are not found
        obtain ⟨qinner, rfl⟩ := hqheader _ rfl
        have hqcut : t = qinner ++ .char '}' :: .char ':' :: (qdigits ++ .char ':' :: qtransformation) := by
          simpa using hqtext
        have hle := length_le_longestHeader? (hqcut ▸ hlong) hqr
        rcases Nat.lt_or_eq_of_le hle with hlt | heq
        · exact .inr (.longer rfl rfl rfl (by simpa using hlt))
        · have hsplit : (qinner ++ [.char '}']) ++ .char ':' :: (qdigits ++ .char ':' :: qtransformation) = header ++ r := by
            rw [← htext, hqcut, List.append_assoc]
            rfl
          obtain ⟨rfl, rfl⟩ := List.append_inj hsplit (by simpa using heq)
          rw [hqr] at hr
          cases hr
          exact .inl rfl
  · next hlong =>
    obtain ⟨⟨digits, transformation⟩, htail, rfl⟩ := Option.map_eq_some_iff.1 h
    obtain ⟨hcut, hdigits⟩ := tail?_eq_some.1 htail
    refine ⟨⟨hcut, by simp, hdigits, ht⟩, fun q hq => ?_⟩
    obtain ⟨qurl, qheader, qdigits, qtransformation⟩ := q
    have hqr := hq.tail?_eq
    obtain ⟨hqtext, hqheader, _, _⟩ := hq
    cases qurl with
    | cons d url => exact .inr (.url (Nat.zero_lt_succ _))
    | nil =>
      cases qheader with
      | none =>
        have hqtail : tail? t = some (qdigits, qtransformation) := by rw [hqtext]; exact hqr
        rw [htail] at hqtail
        cases hqtail
        exact .inl rfl
      | some qheader =>
        -- the text begins with a colon here, and with headers there
        obtain ⟨qinner, rfl⟩ := hqheader _ rfl
        rw [hcut] at hqtext
        exact absurd (List.cons.inj hqtext).1 (by decide)

/-! ## Behind a URL -/

theorem Parts.Writes.cons {p : Parts} {t : Text} {c : CodePoint} (hc : c ≠ '\n') (h : p.Writes t) :
    ({ p with url := c :: p.url } : Parts).Writes (c :: t) where
  text := congrArg (c :: ·) h.text
  header := h.header
  digits := h.digits
  line := by simpa [hc.symm] using h.line

theorem Parts.Before.cons {p q : Parts} (c d : CodePoint) (h : p.Before q) :
    ({ p with url := c :: p.url } : Parts).Before { q with url := d :: q.url } := by
  rcases h with h | ⟨hurl, hp, hq⟩ | ⟨hurl, hp, hq, hlt⟩
  · exact .url (Nat.succ_lt_succ h)
  · exact .headed (congrArg Nat.succ hurl) hp hq
  · exact .longer (congrArg Nat.succ hurl) hp hq hlt

theorem exists_front? {t : Text} {q : Parts} (hurl : q.url = []) (hq : q.Writes t) : ∃ p, front? t = some p := by
  obtain ⟨url, header, digits, transformation⟩ := q
  cases hurl
  have htail := hq.tail?_eq
  unfold front?
  split
  · exact ⟨_, rfl⟩
  · next hlong =>
    cases header with
    | none => exact ⟨_, by rw [hq.text]; exact congrArg (Option.map _) htail⟩
    | some header =>
      obtain ⟨inner, rfl⟩ := hq.header _ rfl
      obtain ⟨x, hx⟩ := exists_longestHeader? ⟨_, htail⟩ inner
      have hcut : t = .char '{' :: (inner ++ .char '}' :: .char ':' :: (digits ++ .char ':' :: transformation)) := by
        simpa using hq.text
      rw [hcut, List.head?_cons, if_pos rfl, List.tail_cons, hx] at hlong
      exact absurd hlong (by simp)

/-- The first character of the text is the first character of the URL. -/
theorem Parts.Writes.tail {q : Parts} {c : CodePoint} {t : Text} (hq : q.Writes (c :: t)) (hurl : q.url ≠ []) :
    ∃ p : Parts, q = { p with url := c :: p.url } ∧ p.Writes t := by
  obtain ⟨url, header, digits, transformation⟩ := q
  cases url with
  | nil => exact absurd rfl hurl
  | cons d url =>
    obtain ⟨rfl, htext⟩ := List.cons.inj hq.text
    exact ⟨⟨url, header, digits, transformation⟩, rfl, htext, hq.header, hq.digits,
      fun h => hq.line (List.mem_cons_of_mem _ h)⟩

/-- **The way that is read** is before all the others. -/
theorem writes_of_parts? {t : Text} {p : Parts} (ht : .char '\n' ∉ t) (h : parts? t = some p) :
    p.Writes t ∧ ∀ q : Parts, q.Writes t → q = p ∨ p.Before q := by
  induction t generalizing p with
  | nil => exact absurd h (by simp [parts?])
  | cons c t ih =>
    rw [parts?_cons] at h
    cases hfront : front? (c :: t) with
    | some p' =>
      rw [hfront] at h
      cases h
      exact writes_of_front? ht hfront
    | none =>
      rw [hfront, Option.none_or] at h
      obtain ⟨p, hp, rfl⟩ := Option.map_eq_some_iff.1 h
      obtain ⟨hc, hline⟩ := not_or.1 (List.mem_cons.not.1 ht)
      obtain ⟨hwrites, hbefore⟩ := ih hline hp
      refine ⟨hwrites.cons (Ne.symm hc), fun q hq => ?_⟩
      have hurl : q.url ≠ [] := fun hurl => by
        obtain ⟨p', hp'⟩ := exists_front? hurl hq
        exact absurd (hfront ▸ hp') (by simp)
      obtain ⟨q, rfl, hrest⟩ := hq.tail hurl
      rcases hbefore q hrest with rfl | hbefore
      · exact .inl rfl
      · exact .inr (hbefore.cons c c)

/-- Something is read where there is a way. -/
theorem exists_parts? {t : Text} {q : Parts} (hq : q.Writes t) : ∃ p, parts? t = some p := by
  induction t generalizing q with
  | nil => exact absurd hq.text (by simp)
  | cons c t ih =>
    rw [parts?_cons]
    by_cases hurl : q.url = []
    · obtain ⟨p, hp⟩ := exists_front? hurl hq
      exact ⟨p, by rw [hp]; rfl⟩
    · obtain ⟨_, rfl, hrest⟩ := hq.tail hurl
      obtain ⟨p, hp⟩ := ih hrest
      rw [hp]
      cases front? (c :: t) <;> exact ⟨_, rfl⟩

theorem match?_of_line {t : Text} (ht : .char '\n' ∉ t) : match? t = parts? t := if_neg (by simpa using ht)

theorem match?_of_newline {t : Text} (ht : .char '\n' ∈ t) : match? t = none := if_pos (by simpa using ht)

/-- **The first way** to write a text is read. -/
theorem match?_eq_some_iff {t : Text} {p : Parts} :
    match? t = some p ↔ p.Writes t ∧ ∀ q : Parts, q.Writes t → q = p ∨ p.Before q := by
  constructor
  · intro h
    by_cases ht : .char '\n' ∈ t
    · exact absurd (match?_of_newline ht ▸ h) (by simp)
    · exact writes_of_parts? ht (match?_of_line ht ▸ h)
  · rintro ⟨hwrites, hbefore⟩
    obtain ⟨p', hp'⟩ := exists_parts? hwrites
    obtain ⟨hwrites', hbefore'⟩ := writes_of_parts? hwrites.line hp'
    rw [match?_of_line hwrites.line, hp']
    rcases hbefore p' hwrites' with rfl | h
    · rfl
    · rcases hbefore' p hwrites with rfl | h'
      · rfl
      · exact absurd h' h.asymm

example : match? (.of "a\x7bb\x7d:1:\x7bc\x7d:2:d") =
    some ⟨.of "a", some (.of "\x7bb\x7d:1:\x7bc\x7d"), .of "2", .of "d"⟩ := by decide

/-- **Nothing is read** exactly if there is no way to write the text. -/
theorem match?_eq_none_iff {t : Text} : match? t = none ↔ ∀ q : Parts, ¬ q.Writes t := by
  constructor
  · intro h q hq
    obtain ⟨p, hp⟩ := exists_parts? hq
    rw [match?_of_line hq.line, hp] at h
    exact absurd h (by simp)
  · intro h
    rw [Option.eq_none_iff_forall_ne_some]
    exact fun p hp => h p (match?_eq_some_iff.1 hp).1

end Inbound

end RequestRules
