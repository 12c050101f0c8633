import RequestRules.Proofs.Grammar.Transformation
import RequestRules.Proofs.Pattern.Sending
import RequestRules.Request

/-!
# The pattern of a call

A call is read as by a backtracking search for `(.*)\((.*)\)` in the whole text (`Call.parse?_eq_whole?`).

What a text stands for does not depend on the rule that it stands in.  A text on one line, and no other, is the body of
some `POST` (`Outbound.exists_posts`), and there it is a transformation if it is one of a rule for polling; if it is none, a
rule for polling keeps it as it stands, and a rule for sending sends it (`Payload.classified_alike`).
-/

namespace RequestRules

namespace Call

variable {t : Text}

/-! ## The search -/

/-- `\((.*)\)` -/
def behindPattern : Pattern := .row [.text ['('], .group 2 (.greedy .any), .text [')']]

/-- `(.*)\((.*)\)` -/
def pattern : Pattern := .seq (.group 1 (.greedy .any)) behindPattern

theorem shown_pattern : pattern.shown = .of "(.*)\\((.*)\\)" := by decide

def ofWay (w : Way) : Call := ⟨(w.group? 1).getD [], (w.group? 2).getD []⟩

def behind? (t : Text) : Option Text :=
  if t.head? = some (.char '(') ∧ t.getLast? = some (.char ')') then some t.tail.dropLast else none

theorem whole?_behindPattern (ht : .char '\n' ∉ t) :
    (behindPattern.whole? t).map (fun w => (ofWay w).parameter) = behind? t := by
  rw [behindPattern, Pattern.row_cons_cons, behind?]
  by_cases hhead : t.head? = some (.char '(')
  · obtain ⟨t, rfl⟩ := List.head?_eq_some_iff.1 hhead
    rw [Pattern.whole?_text_cons, Pattern.whole?_line_ending fun h => ht (List.mem_cons_of_mem _ h)]
    have hlast : (.char '(' :: t).getLast? = some (.char ')') ↔ t.getLast? = some (.char ')') := by cases t <;> simp
    by_cases h : t.getLast? = some (.char ')')
    · rw [if_pos h, if_pos ⟨hhead, hlast.2 h⟩]
      rfl
    · rw [if_neg h, if_neg fun h' => h (hlast.1 h'.2)]
      rfl
  · rw [Pattern.whole?_text_other hhead, if_neg fun h => hhead h.1]
    rfl

theorem parse?_of_line (ht : .char '\n' ∉ t) : parse? t =
    if t.getLast? = some (.char ')') then (Text.cutLast? '(' t.dropLast).map fun x => ⟨x.1, x.2⟩ else none :=
  if_neg (by simpa using ht)

/-- A call is looked for from the right. -/
theorem parse?_cons {c : CodePoint} (ht : .char '\n' ∉ c :: t) : (parse? (c :: t)).map (fun x => (x.name, x.parameter)) =
    (((parse? t).map fun x => (x.name, x.parameter)).map fun x => (c :: x.1, x.2)).or
      ((behind? (c :: t)).map fun p => ([], p)) := by
  rw [parse?_of_line ht, parse?_of_line fun h => ht (List.mem_cons_of_mem _ h), behind?]
  cases t with
  | nil => by_cases hlast : c = ')' <;> simp [hlast, Text.cutLast?]
  | cons d t =>
    rw [List.getLast?_cons_cons, List.dropLast_cons_cons, Text.cutLast?]
    by_cases hlast : (d :: t).getLast? = some (.char ')')
    · cases Text.cutLast? '(' (d :: t).dropLast with
      | some x => simp [hlast]
      | none => by_cases hopen : c = '(' <;> simp [hlast, hopen]
    · simp [hlast]

/-- **The search reads a call** as it is read. -/
theorem parse?_eq_whole? (t : Text) : parse? t = (pattern.whole? t).map ofWay := by
  by_cases ht : .char '\n' ∈ t
  · have hnone : parse? t = none := if_pos (by simpa using ht)
    rw [Pattern.whole?_eq_none (by decide) ht, hnone]
    rfl
  · have hsearch := Pattern.search_greedy_line (fun s => (behindPattern.whole? s).map fun w => (ofWay w).parameter)
      (fun s => (parse? s).map fun x => (x.name, x.parameter)) (by decide)
      (fun c s hs => by rw [whole?_behindPattern hs, parse?_cons hs]) ht Call.mk
    rw [pattern, Pattern.whole?_seq, Pattern.search_group, Pattern.search_greedy_plain, Pattern.map_search]
    simp only [Option.map_map] at hsearch ⊢
    exact (hsearch.trans Option.map_id').symm

end Call

/-! ## Bodies that are posted -/

/-- A body ends with its line. -/
theorem Located.line_of_body {t x : Text} (h : (read t).body = some x) : .char '\n' ∉ x := by
  obtain ⟨left, hpart⟩ : ∃ left, Address.part [':'] ['\n'] (Address.read t).2 = ((read t).body, left) := ⟨_, rfl⟩
  obtain ⟨_, _, hstops⟩ := Address.part_spec hpart
  exact fun hn => (hstops x h).1 '\n' hn (by decide)

theorem Target.body_of_read {t : Text} {target : Target} (h : read t = .ok target) :
    target.body = (Located.read t).body := by
  obtain ⟨⟨url, fragment⟩, _, h⟩ := Outcome.bind_eq_ok.1 h
  change (if url.isEmpty then Except.error (GrammarError.emptyAddress t) else _) = _ at h
  split_ifs at h
  cases h
  rfl

namespace Outbound

variable {text x : Text}

/-- The text is a rule for a `POST` with the body behind its address, once its `\"`s are taken out. -/
inductive Posts (text body : Text) : Prop
  | intro {command rest address : Text} {leading : List Header} {target : Target}
      (cut : match? text = some (command, post, rest))
      (leads : Leading (rest.replace (.of "\\\"") []) leading address)
      (aims : Target.read address = .ok target) (carries : target.body = some body)

/-- **The body of a `POST`** is sent, or is the transformation. -/
theorem Posts.read (h : Posts text x) : ∃ s, read text = .ok s ∧
    s.transformation = (Payload.classify x).transformation? ∧ s.body = (Payload.classify x).body? := by
  obtain @⟨command, rest, address, leading, target, hcut, hleading, htarget, hbody⟩ := h
  have hread : Outbound.read text = .ok (assembled command post leading target) := by
    rw [read_of_some hcut hleading, htarget]
    rfl
  have hpayload := (reads_iff.2 (Eq.refl (assembled command post leading target))).payload rfl
  rw [hbody] at hpayload
  exact ⟨_, hread, hpayload.2, hpayload.1⟩

theorem Posts.line (h : Posts text x) : .char '\n' ∉ x := by
  obtain ⟨_, _, htarget, hbody⟩ := h
  exact Located.line_of_body (Target.body_of_read htarget ▸ hbody)

/-- A text with a `\"` more in front of each `"`. -/
def padded (t : Text) : Text := t.flatMap fun c => if c = .char '"' then ['\\', '"', '"'] else [c]

theorem mem_of_mem_padded {c : CodePoint} {t : Text} (h : c ∈ padded t) : c = '\\' ∨ c ∈ t := by
  obtain ⟨d, hd, hc⟩ := List.mem_flatMap.1 h
  split_ifs at hc with hquote
  · have hcases : c = '\\' ∨ c = '"' := by simpa using hc
    exact hcases.imp_right fun hc => by rwa [hc, ← hquote]
  · rw [List.mem_singleton.1 hc]
    exact .inr hd

/-- The `\"`s that are taken out again are those that were put in. -/
theorem replace_padded (t : Text) : (padded t).replace ['\\', '"'] [] = t := Text.replace_flatMap (by decide) rfl t

def home : Address := ⟨some (.of "http"), some (.of "x"), .of "/", none, none⟩

theorem home_endsBefore (rest : Text) : home.EndsBefore rest := by
  constructor
  case noScheme => exact nofun
  case noAuthority => exact nofun
  case query => exact nofun
  case fragment => exact nofun
  case path => exact Text.forall_mem_of_all (by decide)
  case scheme =>
    rintro s ⟨⟩
    exact ⟨by decide, Text.forall_mem_of_all (by decide)⟩
  case authority =>
    rintro s ⟨⟩
    refine ⟨Text.forall_mem_of_all (by decide), ?_⟩
    rintro c ⟨⟩
    decide

theorem read_home (hx : .char '\n' ∉ x) : Target.read (home.render ++ .char ':' :: x) = .ok ⟨home.render, none, some x⟩ := by
  have hread : Target.read (home.render ++ Header.optional [] ++ bodyPart (some x)) =
      .ok ⟨home.render, if ([] : List Header) = [] then none else some (Header.inner []), some x⟩ :=
    Target.read_render (by decide) (by decide) (home_endsBefore _) (by simpa using hx) (by decide)
      (fun h => absurd rfl h) (by decide)
  rwa [Header.optional, if_pos rfl, if_pos rfl, List.append_nil] at hread

def posting (x : Text) : Text := .char ':' :: (post ++ .char ':' :: (home.render ++ .char ':' :: padded x))

theorem line_posting (hx : .char '\n' ∉ x) : .char '\n' ∉ posting x := by
  have hpadded : .char '\n' ∉ padded x := fun h => (mem_of_mem_padded h).elim (by decide) hx
  have hpost : .char '\n' ∉ post := by decide
  have hhome : .char '\n' ∉ home.render := by decide
  simp [posting, hpadded, hpost, hhome]

theorem posts_posting (hx : .char '\n' ∉ x) : Posts (posting x) x := by
  have hmatch : match? (posting x) = some ([], post, home.render ++ .char ':' :: padded x) := by
    rw [match?_of_line (line_posting hx), posting, parts?_cons,
      front?_eq_some.2 ⟨rfl, Text.forall_mem_of_all (by decide)⟩]
    rfl
  have hbehind : Text.replace (':' :: padded x) ['\\', '"'] [] = .char ':' :: x :=
    (Text.replaceFrom_cons (by simp)).trans (congrArg (.char ':' :: ·) (replace_padded x))
  have hrest : (home.render ++ .char ':' :: padded x).replace ['\\', '"'] [] = home.render ++ .char ':' :: x := by
    rw [Text.replace_append (by decide), hbehind, Text.replace_eq_self (by decide)]
  have hleading : Leading ((home.render ++ .char ':' :: padded x).replace ['\\', '"'] []) []
      (home.render ++ .char ':' :: x) := by
    have hhead : (home.render ++ .char ':' :: x).head? = some (.char 'h') := rfl
    rw [hrest]
    exact .none fun h => absurd (hhead.symm.trans h) (by decide)
  exact ⟨hmatch, hleading, read_home hx, rfl⟩

/-- **What can be posted** is on one line. -/
theorem exists_posts : (∃ text, Posts text x) ↔ .char '\n' ∉ x := by
  constructor
  · rintro ⟨text, h⟩
    exact h.line
  · intro hx
    exact ⟨posting x, posts_posting hx⟩

end Outbound

/-! ## Both rules -/

/-- The request of a rule for sending has what its body stands for, which is not both a transformation and a body. -/
theorem Request.ofOutbound?_of_posts {text t : Text} (h : Outbound.Posts text t) :
    ∃ s q, Outbound.read text = .ok s ∧ ofOutbound? s = some q ∧
      q.transformation = (Payload.classify t).transformation? ∧ q.body = (Payload.classify t).body? := by
  obtain ⟨s, hread, htransformation, hbody⟩ := h.read
  have hnotBoth := (Payload.classify t).transformation?_or_body?
  rw [← htransformation, ← hbody] at hnotBoth
  exact ⟨s, _, hread, check?_of_notBoth hnotBoth, htransformation, hbody⟩

/-- **What a text stands for**, in a rule for polling and as the body of a `POST`.  A call is read as by a backtracking
search for its pattern, that is, from every text that writes one.  Each text is a transformation or, as it stands, a body.
A text that writes a transformation is kept as the same one by both rules; any other text is the transformation of the rule
for polling, which has no body, and the body of the rule for sending, which has no transformation. -/
theorem Payload.classified_alike (t : Text) :
    (Call.pattern.shown = .of "(.*)\\((.*)\\)" ∧ Call.parse? t = (Call.pattern.whole? t).map Call.ofWay) ∧
      (∀ c, Call.parse? t = some c ↔ c.Writes t) ∧
      (Call.parse? t = none ↔ ∀ c : Call, ¬ c.Writes t) ∧
      ((∃ y, Transforms t y ∧ (classify t).transformation? = some y ∧ (classify t).body? = none) ∨
        (∀ y, ¬ Transforms t y) ∧ (classify t).transformation? = none ∧ (classify t).body? = some t) ∧
      (∀ s : Inbound, s.transformation = t → (Request.ofInbound s).body = none ∧
        (∀ y, Transforms t y → (Request.ofInbound s).transformation = some y) ∧
        ((∀ y, ¬ Transforms t y) → (Request.ofInbound s).transformation = some t)) ∧
      ((∃ text, Outbound.Posts text t) ↔ .char '\n' ∉ t) ∧
      ∀ text, Outbound.Posts text t → ∃ s q, Outbound.read text = .ok s ∧ Request.ofOutbound? s = some q ∧
        (∀ y, Transforms t y → q.transformation = some y ∧ q.body = none) ∧
        ((∀ y, ¬ Transforms t y) → q.transformation = none ∧ q.body = some t) := by
  refine ⟨⟨Call.shown_pattern, Call.parse?_eq_whole? t⟩, fun c => Call.parse?_eq_some_iff, Call.parse?_eq_none_iff, ?_, ?_,
    Outbound.exists_posts, ?_⟩
  · rcases classify_cases t with ⟨y, hy, hclass⟩ | ⟨hnone, hclass⟩
    · exact .inl ⟨y, hy, by rw [hclass]; exact ⟨rfl, rfl⟩⟩
    · exact .inr ⟨hnone, by rw [hclass]; exact ⟨rfl, rfl⟩⟩
  · rintro s rfl
    refine ⟨rfl, fun y hy => ?_, fun hnone => ?_⟩
    · rw [Request.ofInbound, classify_of_transforms hy]
      rfl
    · rw [Request.ofInbound, classify_of_none hnone]
      rfl
  · intro text htext
    obtain ⟨s, q, hread, hrequest, htransformation, hbody⟩ := Request.ofOutbound?_of_posts htext
    refine ⟨s, q, hread, hrequest, fun y hy => ?_, fun hnone => ?_⟩
    · rw [htransformation, hbody, classify_of_transforms hy]
      exact ⟨rfl, rfl⟩
    · rw [htransformation, hbody, classify_of_none hnone]
      exact ⟨rfl, rfl⟩

end RequestRules
