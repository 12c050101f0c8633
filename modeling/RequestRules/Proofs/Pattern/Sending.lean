import RequestRules.Proofs.Grammar.Reread
import RequestRules.Proofs.Pattern
import RequestRules.Proofs.Rejection

/-!
# The pattern of a rule for sending

A rule for sending is cut as by a backtracking search for `(.*?):([A-Z]*):(.*)` in the whole text.  A command may hold
colons and capital letters, so that a text on one line can be cut in several ways (`Outbound.Writes`); the one with the
shortest command is taken.

* `writes_of_parts?`, `exists_parts?` — what is cut is the way with the shortest command, and something is cut if there
  is a way;
* `match?_eq_whole?` — the search comes to the same way;
* `takeLeading_eq_iff` — the headers in front of an address;
* `length_of_target_error` — what is behind the headers is never reported as the whole text.

`read_shortest_command` says what a rule is read as, and when it is refused.
-/

namespace RequestRules

namespace Outbound

def match? (t : Text) : Option (Text × Text × Text) := if t.contains '\n' then none else parts? t

/-- The parts are a way to write the text, which is on one line. -/
structure Writes (command method rest t : Text) : Prop where
  text : t = command ++ .char ':' :: (method ++ .char ':' :: rest)
  method : ∀ c ∈ method, c.isUpper = true
  line : .char '\n' ∉ t

/-! ## The shortest command -/

/-- Method and rest at the very front of a text, behind a colon. -/
def front? (t : Text) : Option (Text × Text) := if t.head? = some (.char ':') then method? t.tail else none

theorem front?_eq_some {t method rest : Text} :
    front? t = some (method, rest) ↔ t = .char ':' :: (method ++ .char ':' :: rest) ∧ ∀ c ∈ method, c.isUpper = true := by
  constructor
  · intro h
    unfold front? at h
    split_ifs at h with hhead
    obtain ⟨t, rfl⟩ := List.head?_eq_some_iff.1 hhead
    obtain ⟨rfl, hmethod⟩ := Text.run?_eq_some h
    exact ⟨rfl, hmethod⟩
  · rintro ⟨rfl, hmethod⟩
    exact Text.run?_append hmethod (by decide)

theorem parts?_cons (c : CodePoint) (t : Text) :
    parts? (c :: t) = ((front? (c :: t)).map fun x => ([], x)).or ((parts? t).map fun x => (c :: x.1, x.2)) := by
  rw [parts?, front?]
  by_cases hc : c = ':'
  · subst hc
    rw [if_pos rfl, if_pos (show (.char ':' :: t).head? = some (.char ':') from rfl), List.tail_cons]
    cases method? t <;> rfl
  · rw [if_neg hc, if_neg (by simpa using hc)]
    rfl

variable {t command method rest command' method' rest' : Text}

theorem Writes.cons {c : CodePoint} (hc : c ≠ '\n') (h : Writes command method rest t) :
    Writes (c :: command) method rest (c :: t) where
  text := congrArg (c :: ·) h.text
  method := h.method
  line := by simpa [hc.symm] using h.line

theorem Writes.tail {c d : CodePoint} (h : Writes (d :: command) method rest (c :: t)) : Writes command method rest t where
  text := (List.cons.inj h.text).2
  method := h.method
  line := fun hn => h.line (List.mem_cons_of_mem _ hn)

/-- **What is cut** is a way to write the text, and any other way has a longer command. -/
theorem writes_of_parts? (ht : .char '\n' ∉ t) (h : parts? t = some (command, method, rest)) :
    Writes command method rest t ∧ ∀ command' method' rest', Writes command' method' rest' t →
      (command', method', rest') = (command, method, rest) ∨ command.length < command'.length := by
  induction t generalizing command with
  | nil => exact absurd h (by simp [parts?])
  | cons c t ih =>
    rw [parts?_cons] at h
    cases hfront : front? (c :: t) with
    | some x =>
      rw [hfront] at h
      cases h
      obtain ⟨htext, hmethod⟩ := front?_eq_some.1 hfront
      refine ⟨⟨htext, hmethod, ht⟩, fun command' method' rest' h' => ?_⟩
      cases command' with
      | cons d command' => exact .inr (Nat.zero_lt_succ _)
      | nil =>
        rw [front?_eq_some.2 ⟨h'.text, h'.method⟩] at hfront
        cases hfront
        exact .inl rfl
    | none =>
      rw [hfront, Option.map_none, Option.none_or] at h
      obtain ⟨⟨command, x⟩, hx, heq⟩ := Option.map_eq_some_iff.1 h
      cases heq
      obtain ⟨hc, hline⟩ := not_or.1 (List.mem_cons.not.1 ht)
      obtain ⟨hwrites, hshortest⟩ := ih hline hx
      refine ⟨hwrites.cons (Ne.symm hc), fun command' method' rest' h' => ?_⟩
      cases command' with
      | nil => exact absurd (hfront ▸ front?_eq_some.2 ⟨h'.text, h'.method⟩) (by simp)
      | cons d command' =>
        obtain ⟨rfl, _⟩ := List.cons.inj h'.text
        rcases hshortest command' method' rest' h'.tail with heq | hlt
        · cases heq
          exact .inl rfl
        · exact .inr (Nat.succ_lt_succ hlt)

/-- Something is cut where there is a way. -/
theorem exists_parts? (h : Writes command method rest t) : ∃ x, parts? t = some x := by
  induction t generalizing command with
  | nil => exact absurd h.text (by simp)
  | cons c t ih =>
    rw [parts?_cons]
    cases command with
    | nil =>
      rw [front?_eq_some.2 ⟨h.text, h.method⟩]
      exact ⟨_, rfl⟩
    | cons d command =>
      obtain ⟨x, hx⟩ := ih h.tail
      rw [hx]
      cases front? (c :: t) <;> exact ⟨_, rfl⟩

theorem match?_of_line (ht : .char '\n' ∉ t) : match? t = parts? t := if_neg (by simpa using ht)

theorem match?_of_newline (ht : .char '\n' ∈ t) : match? t = none := if_pos (by simpa using ht)

/-- **The way with the shortest command** is taken. -/
theorem match?_eq_some_iff : match? t = some (command, method, rest) ↔
    Writes command method rest t ∧ ∀ command' method' rest', Writes command' method' rest' t →
      (command', method', rest') = (command, method, rest) ∨ command.length < command'.length := by
  constructor
  · intro h
    by_cases ht : .char '\n' ∈ t
    · exact absurd (match?_of_newline ht ▸ h) (by simp)
    · exact writes_of_parts? ht (match?_of_line ht ▸ h)
  · rintro ⟨hwrites, hshortest⟩
    obtain ⟨⟨command', method', rest'⟩, hparts⟩ := exists_parts? hwrites
    obtain ⟨hwrites', hshortest'⟩ := writes_of_parts? hwrites.line hparts
    rw [match?_of_line hwrites.line, hparts]
    rcases hshortest _ _ _ hwrites' with heq | hlt
    · rw [heq]
    · rcases hshortest' _ _ _ hwrites with heq | hlt'
      · rw [heq]
      · exact absurd hlt (Nat.lt_asymm hlt')

example : match? (.of "A:B:a:GET:GET:b") = some (.of "A", .of "B", .of "a:GET:GET:b") := by decide

/-- **Nothing is taken** exactly if there is no way to write the text. -/
theorem match?_eq_none_iff : match? t = none ↔ ∀ command method rest, ¬ Writes command method rest t := by
  constructor
  · intro h command method rest hwrites
    obtain ⟨x, hx⟩ := exists_parts? hwrites
    rw [match?_of_line hwrites.line, hx] at h
    exact absurd h (by simp)
  · intro h
    rw [Option.eq_none_iff_forall_ne_some]
    exact fun x hx => h _ _ _ (match?_eq_some_iff.1 hx).1

/-! ## The search -/

/-- `:([A-Z]*):(.*)` -/
def frontPattern : Pattern := .row [.text [':'], .group 2 (.greedy .upper), .text [':'], .group 3 (.greedy .any)]

/-- `(.*?):([A-Z]*):(.*)` -/
def pattern : Pattern := .seq (.group 1 (.lazy .any)) frontPattern

theorem shown_pattern : pattern.shown = GrammarError.outboundShape := by decide

def ofWay (w : Way) : Text × Text × Text := ((w.group? 1).getD [], (w.group? 2).getD [], (w.group? 3).getD [])

theorem whole?_frontPattern (ht : .char '\n' ∉ t) : (frontPattern.whole? t).map (fun w => (ofWay w).2) = front? t := by
  rw [frontPattern, Pattern.row_cons_cons, front?]
  by_cases hhead : t.head? = some (.char ':')
  · obtain ⟨t, rfl⟩ := List.head?_eq_some_iff.1 hhead
    rw [Pattern.whole?_text_cons, Pattern.whole?_run (by decide) fun h => ht (List.mem_cons_of_mem _ h), if_pos hhead,
      List.tail_cons, method?, Option.map_map, Option.map_map]
    exact Option.map_id'
  · rw [Pattern.whole?_text_other hhead, if_neg hhead]
    rfl

/-- **The search cuts a text** as it is read. -/
theorem match?_eq_whole? (t : Text) : match? t = (pattern.whole? t).map ofWay := by
  by_cases ht : .char '\n' ∈ t
  · rw [Pattern.whole?_eq_none (by decide) ht, match?_of_newline ht]
    rfl
  · have hsearch := Pattern.search_lazy_line (fun s => (frontPattern.whole? s).map fun w => (ofWay w).2) parts?
      (by rw [whole?_frontPattern (by simp)]; rfl) (fun c s hs => by rw [whole?_frontPattern hs, parts?_cons]) ht Prod.mk
    rw [match?_of_line ht, pattern, Pattern.whole?_seq, Pattern.search_group, Pattern.search_lazy_plain,
      Pattern.map_search]
    simp only [Option.map_map] at hsearch ⊢
    exact (hsearch.trans Option.map_id').symm

/-! ## The headers in front -/

/-- The headers in front of an address, up to the first `}`, and what follows them. -/
inductive Leading (t : Text) : List Header → Text → Prop
  | headers {inner rest : Text} (text : t = .char '{' :: (inner ++ .char '}' :: rest)) (first : .char '}' ∉ inner) :
    Leading t (Header.parse ('{' :: (inner ++ [.char '}']))) rest
  | none (h : t.head? = some (.char '{') → .char '}' ∉ t) : Leading t [] t

theorem takeLeading_eq_iff {hs : List Header} : takeLeading t = (hs, rest) ↔ Leading t hs rest := by
  constructor
  · intro h
    unfold takeLeading at h
    split_ifs at h with hhead
    · obtain ⟨t, rfl⟩ := List.head?_eq_some_iff.1 hhead
      split at h
      · next front r hcut =>
        cases h
        obtain ⟨htext, hfirst⟩ := Text.cut?_eq_some hcut
        cases front with
        | nil => exact absurd (List.cons.inj htext).1 (by decide)
        | cons c inner =>
          obtain ⟨rfl, rfl⟩ := List.cons.inj htext
          exact .headers rfl fun h => hfirst (List.mem_cons_of_mem _ h)
      · next hcut =>
        cases h
        refine .none fun _ hclose => ?_
        obtain ⟨l, r, heq, hl⟩ := List.eq_append_cons_of_mem hclose
        rw [heq, Text.cut?_append hl] at hcut
        exact absurd hcut (by simp)
    · cases h
      exact .none fun h => absurd h hhead
  · rintro (⟨rfl, hfirst⟩ | h)
    · have hbrace : CodePoint.char '}' ≠ .char '{' := by decide
      have hcut := Text.cut?_append (r := rest) (List.not_mem_cons_of_ne_of_not_mem hbrace hfirst)
      rw [List.cons_append] at hcut
      rw [takeLeading, if_pos (by rfl), hcut]
      rfl
    · exact takeLeading_none h

theorem Leading.length_le {hs : List Header} (h : Leading t hs rest) : rest.length ≤ t.length := by
  rcases h with ⟨rfl, _⟩ | _
  · simp only [List.length_cons, List.length_append]
    omega
  · exact Nat.le_refl _

/-! ## What a rule is read as -/

/-- What a rule for sending is read as, from its parts. -/
structure Reads (command method : Text) (leading : List Header) (target : Target) (s : Outbound) : Prop where
  /-- only a `POST` has a payload -/
  silent : method ≠ post → s.body = none ∧ s.transformation = none
  payload : method = post → s.body = (target.body.map Payload.classify).bind Payload.body? ∧
    s.transformation = (target.body.map Payload.classify).bind Payload.transformation?
  command : s.command = command
  method : s.method = method
  url : s.url = target.url
  headers : s.headers = leading ++ Header.parseOption target.fragment

def assembled (command method : Text) (leading : List Header) (target : Target) : Outbound where
  command := command
  method := method
  url := target.url
  headers := leading ++ Header.parseOption target.fragment
  body := (if method = post then target.body.map Payload.classify else none).bind Payload.body?
  transformation := (if method = post then target.body.map Payload.classify else none).bind Payload.transformation?

theorem reads_iff {leading : List Header} {target : Target} {s : Outbound} :
    Reads command method leading target s ↔ assembled command method leading target = s := by
  constructor
  · rintro ⟨hsilent, hpayload, rfl, rfl, hurl, hheaders⟩
    have hsent : (assembled s.command s.method leading target).body = s.body ∧
        (assembled s.command s.method leading target).transformation = s.transformation := by
      unfold assembled
      by_cases hpost : s.method = post
      · rw [if_pos hpost, (hpayload hpost).1, (hpayload hpost).2]
        exact ⟨rfl, rfl⟩
      · rw [if_neg hpost, (hsilent hpost).1, (hsilent hpost).2]
        exact ⟨rfl, rfl⟩
    obtain ⟨command, method, url, headers, body, transformation⟩ := s
    exact Outbound.mk.injEq .. ▸ ⟨rfl, rfl, hurl.symm, hheaders.symm, hsent⟩
  · rintro rfl
    refine ⟨fun hpost => ?_, fun hpost => ?_, rfl, rfl, rfl, rfl⟩
    · unfold assembled
      rw [if_neg hpost]
      exact ⟨rfl, rfl⟩
    · unfold assembled
      rw [if_pos hpost]
      exact ⟨rfl, rfl⟩

theorem read_of_none (h : match? t = none) : read t = .error (.outbound t) := by
  unfold read
  rw [show (if t.contains '\n' then none else parts? t) = none from h]

/-- Behind the headers in front the target is read. -/
theorem read_of_some {leading : List Header} {address : Text} (h : match? t = some (command, method, rest))
    (hleading : Leading (rest.replace (.of "\\\"") []) leading address) :
    read t = (Target.read address).map (assembled command method leading) := by
  unfold read
  rw [show (if t.contains '\n' then none else parts? t) = _ from h]
  simp only [takeLeading_eq_iff.2 hleading]
  cases Target.read address <;> rfl

/-- A fault of a target is in a text that is no longer. -/
theorem length_of_target_error {e : GrammarError} (h : Target.read t = .error e) : e.text.length ≤ t.length := by
  rcases Target.read_error h with rfl | rfl
  · have hlength := congrArg List.length (Address.render_append t)
    rw [List.length_append] at hlength
    exact Nat.le.intro hlength
  · exact Nat.le_refl _

/-- A fault behind a command is in a shorter text. -/
theorem text_ne_of_some {leading : List Header} {address : Text} {e : GrammarError}
    (h : match? t = some (command, method, rest)) (hleading : Leading (rest.replace (.of "\\\"") []) leading address)
    (herror : Target.read address = .error e) : e.text ≠ t := by
  intro htext
  have hsub : (rest.replace (.of "\\\"") []).length ≤ rest.length := (Text.replace_sublist rest).length_le
  have hcut := congrArg List.length (match?_eq_some_iff.1 h).1.text
  have herr := length_of_target_error herror
  rw [htext] at herr
  have haddress := hleading.length_le
  simp only [List.length_append, List.length_cons] at hcut
  omega

/-- **A rule for sending** is cut as by a backtracking search for its pattern in the whole text, that is, in the way to
write the text with the shortest command.  It is refused, and the text as a whole is reported, exactly if there is no way.
Else the rest without its `\"`s says what is read: headers in front, up to the first `}`, and behind them the target, whose
fault is the fault of the rule; its embedded headers come behind those in front, and only a `POST` has a payload. -/
theorem read_shortest_command (t : Text) :
    match? t = (pattern.whole? t).map ofWay ∧
      (match? t = none ↔ ∀ command method rest, ¬ Writes command method rest t) ∧
      (∀ command method rest, match? t = some (command, method, rest) ↔
        Writes command method rest t ∧ ∀ command' method' rest', Writes command' method' rest' t →
          (command', method', rest') = (command, method, rest) ∨ command.length < command'.length) ∧
      ((∃ e, read t = .error e ∧ e.text = t) ↔ match? t = none) ∧
      (match? t = none → ∃ e, read t = .error e ∧ e.text = t ∧ e.expected = pattern.shown) ∧
      ∀ command method rest, match? t = some (command, method, rest) →
        ∃ leading address, Leading (rest.replace (.of "\\\"") []) leading address ∧
          (∀ e, read t = .error e ↔ Target.read address = .error e) ∧
          ∀ s, read t = .ok s ↔
            ∃ target, Target.read address = .ok target ∧ Reads command method leading target s := by
  have hreported : match? t = none → ∃ e, read t = .error e ∧ e.text = t ∧ e.expected = pattern.shown :=
    fun h => ⟨_, read_of_none h, rfl, shown_pattern.symm⟩
  have hrest : ∀ command method rest, match? t = some (command, method, rest) →
      ∃ leading address, Leading (rest.replace (.of "\\\"") []) leading address :=
    fun _ _ rest _ => ⟨_, _, takeLeading_eq_iff.1 rfl⟩
  refine ⟨match?_eq_whole? t, match?_eq_none_iff, fun _ _ _ => match?_eq_some_iff, ⟨?_, fun h => ?_⟩, hreported, ?_⟩
  · rintro ⟨e, herror, htext⟩
    cases hmatch : match? t with
    | none => rfl
    | some x =>
      obtain ⟨command, method, rest⟩ := x
      obtain ⟨leading, address, hleading⟩ := hrest _ _ _ hmatch
      exact absurd htext (text_ne_of_some hmatch hleading (Outcome.map_eq_error.1 (read_of_some hmatch hleading ▸ herror)))
  · obtain ⟨e, herror, htext, _⟩ := hreported h
    exact ⟨e, herror, htext⟩
  · intro command method rest hmatch
    obtain ⟨leading, address, hleading⟩ := hrest _ _ _ hmatch
    refine ⟨leading, address, hleading, fun e => ?_, fun s => ?_⟩
    · rw [read_of_some hmatch hleading, Outcome.map_eq_error]
    · simp only [read_of_some hmatch hleading, Outcome.map_eq_ok, reads_iff]

end Outbound

end RequestRules
