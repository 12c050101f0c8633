import RequestRules.Descriptor
import RequestRules.Proofs.Outcome
import RequestRules.Proofs.Sameness

/-!
# Descriptors and the segments that they come from

* `Descriptor.get?_ofEntries` — under a key stands the last entry with that key;
* `Descriptor.entries_of_parse` — the entries of an accepted text are its segments, each under its own key.

`Segment.answering?` says, without descriptors, which of the segments of a text answers for a command.
-/

namespace RequestRules

/-! ## Entries -/

namespace Descriptor

variable {k : Key} {es : List (Key × Request)} {e : Key × Request}

theorem find?_put : ((put es e).find? fun x => x.1.Same k) =
    if e.1.Same k then some e else es.find? fun x => x.1.Same k := by
  have hput : put es e = es.filter (fun x => ¬ x.1.Same e.1) ++ [e] := rfl
  rw [hput, List.find?_append, List.find?_filter]
  by_cases h : e.1.Same k
  · -- whatever finds the same as `e` is gone
    rw [if_pos h, List.find?_eq_none.2, Option.none_or, List.find?_singleton, if_pos (by simpa using h)]
    intro x _ hx
    obtain ⟨hne, hk⟩ : ¬ x.1.Same e.1 ∧ x.1.Same k := by simpa using hx
    exact hne (hk.trans h.symm)
  · have hkeep : ∀ x : Key × Request, (¬ x.1.Same e.1) ∧ x.1.Same k ↔ x.1.Same k := by
      intro x
      refine ⟨And.right, fun hx => ⟨fun he => h (he.symm.trans hx), hx⟩⟩
    simp [h, hkeep]

theorem find?_foldl_put (es acc : List (Key × Request)) :
    ((es.foldl put acc).find? fun x => x.1.Same k) =
      (es.reverse.find? fun x => x.1.Same k).or (acc.find? fun x => x.1.Same k) := by
  induction es generalizing acc with
  | nil => simp
  | cons e es ih =>
    rw [List.foldl_cons, ih, find?_put, List.reverse_cons, List.find?_append, Option.or_assoc]
    by_cases h : e.1.Same k <;> simp [h]

/-- **The last entry with a key counts.** -/
theorem get?_ofEntries (item : Text) (states : List ValueKind) (es : List (Key × Request)) (k : Key) :
    (ofEntries item states es).get? k = (es.reverse.find? fun e => e.1.Same k).map (·.2) := by
  unfold get? ofEntries
  rw [find?_foldl_put]
  simp

end Descriptor

/-! ## What a segment says -/

namespace Segment

/-- The key of a segment, unless its command is none for the kinds. -/
def key? (commands : List ValueKind) : Segment → Option Key
  | inbound _ => some .inbound
  | outbound s => (Key.resolve s.command commands).toOption

def isFor (commands : List ValueKind) (k : Key) (s : Segment) : Bool :=
  match s.key? commands with
  | some l => l.Same k
  | none => false

def isInbound : Segment → Bool
  | inbound _ => true
  | outbound _ => false

def isWildcard : Segment → Bool
  | inbound _ => false
  | outbound s => s.command = [.char '*']

def method? : Segment → Option Text
  | inbound _ => none
  | outbound s => some s.method

def url : Segment → Text
  | inbound s => s.url
  | outbound s => s.url

def headers : Segment → List Header
  | inbound s => s.headers
  | outbound s => s.headers

def interval : Segment → Nat
  | inbound s => s.interval
  | outbound _ => 0

def transformation? : Segment → Option Text
  | inbound s => some ((Payload.classify s.transformation).transformation?.getD s.transformation)
  | outbound s => s.transformation

def body? : Segment → Option Text
  | inbound _ => none
  | outbound s => s.body

def request (s : Segment) : Request where
  url := s.url
  method := s.method?
  headers := s.headers
  interval := s.interval
  transformation := s.transformation?
  body := s.body?

variable {commands : List ValueKind}

theorem key?_outbound (s : Outbound) : key? commands (outbound s) =
    if s.command = Key.changed.render then some .changed
    else if s.command = [.char '*'] then some .wildcard
    else (Value.readAny? commands s.command).map .command := by
  have hw : Key.wildcard.render = [.char '*'] := rfl
  show (Key.resolve s.command commands).toOption = _
  unfold Key.resolve
  rw [hw]
  split_ifs
  · rfl
  · rfl
  · cases Value.readAny? commands s.command <;> rfl

theorem isFor_inbound (s : Segment) : s.isFor commands .inbound = s.isInbound := by
  cases s with
  | inbound s => rfl
  | outbound s =>
    unfold isFor
    rw [key?_outbound]
    split_ifs
    · rfl
    · rfl
    · cases Value.readAny? commands s.command <;> rfl

theorem isFor_wildcard (s : Segment) : s.isFor commands .wildcard = s.isWildcard := by
  cases s with
  | inbound s => rfl
  | outbound s =>
    have hs : isWildcard (outbound s) = decide (s.command = [.char '*']) := rfl
    rw [isFor, key?_outbound, hs]
    split_ifs with hc hw
    · rw [hc]
      decide
    · rw [decide_eq_true hw]
      rfl
    · rw [decide_eq_false hw]
      cases Value.readAny? commands s.command <;> rfl

/-- The segment that answers for a command is the last one that is found by it, else the last wildcard, which stands for
neither changes of state nor polling.  Without a command it is the last one for polling. -/
def answering? (commands : List ValueKind) (ss : List Segment) : Option Key → Option Segment
  | none => ss.reverse.find? isInbound
  | some k =>
    match ss.reverse.find? (isFor commands k) with
    | some s => some s
    | none =>
      match k with
      | .changed | .inbound => none
      | .wildcard | .command _ => ss.reverse.find? isWildcard

end Segment

/-! ## Accepted texts -/

namespace Descriptor

variable {commands : List ValueKind}

theorem filed_ok {k : Key} {r : Request} {e : Key × Request} (h : filed k r.check? = .ok e) : e = (k, r) := by
  unfold Request.check? at h
  split_ifs at h
  · exact absurd h (by simp [filed])
  · exact (Except.ok.inj h).symm

theorem entry_ok {s : Segment} {e : Key × Request} (h : entry commands s = .ok e) :
    s.key? commands = some e.1 ∧ e.2 = s.request := by
  cases s with
  | inbound s =>
    have he := filed_ok (r := Request.ofInbound s) h
    subst he
    exact ⟨rfl, rfl⟩
  | outbound s =>
    obtain ⟨k, hk, h⟩ := Outcome.bind_eq_ok.1 h
    have he := filed_ok h
    subst he
    refine ⟨?_, rfl⟩
    show (Key.resolve s.command commands).toOption = some k
    rw [Outcome.mapError_eq_ok.1 hk]
    rfl

/-- Looking for an entry is looking for a segment. -/
theorem find?_of_forall₂ {ss : List Segment} {es : List (Key × Request)}
    (h : List.Forall₂ (fun s e => s.key? commands = some e.1 ∧ e.2 = s.request) ss es) (k : Key) :
    (es.find? fun e => e.1.Same k).map (·.2) = (ss.find? (Segment.isFor commands k)).map Segment.request := by
  induction h with
  | nil => rfl
  | @cons s e ss es hse _ ih =>
    have hfor : s.isFor commands k = decide (e.1.Same k) := by
      unfold Segment.isFor
      rw [hse.1]
    rw [List.find?_cons, List.find?_cons, hfor]
    cases decide (e.1.Same k) with
    | true => simp [hse.2]
    | false => exact ih

theorem get?_of_forall₂ {ss : List Segment} {es : List (Key × Request)}
    (h : List.Forall₂ (fun s e => s.key? commands = some e.1 ∧ e.2 = s.request) ss es) (item : Text)
    (states : List ValueKind) (k : Key) : (ofEntries item states es).get? k =
      (ss.reverse.find? (Segment.isFor commands k)).map Segment.request := by
  rw [get?_ofEntries]
  exact find?_of_forall₂ (List.rel_reverse h) k

theorem parse_eq_ok {item : Item} {text : Text} {d : Descriptor} : parse item text = .ok d ↔
    ∃ ss es, Segment.readAll text = .ok ss ∧ ss.mapM (entry item.type.commands) = .ok es ∧
      d = ofEntries item.name item.type.states es := by
  constructor
  · intro h
    obtain ⟨ss, hss, h⟩ := Outcome.bind_eq_ok.1 h
    obtain ⟨es, hes, h⟩ := Outcome.bind_eq_ok.1 h
    exact ⟨ss, es, Outcome.mapError_eq_ok.1 hss, hes, (Except.ok.inj h).symm⟩
  · rintro ⟨ss, es, hss, hes, rfl⟩
    exact Outcome.bind_eq_ok.2 ⟨ss, Outcome.mapError_eq_ok.2 hss, Outcome.bind_eq_ok.2 ⟨es, hes, rfl⟩⟩

/-- The entries of an accepted text are its segments, each under its own key, of which the last counts. -/
theorem entries_of_parse {item : Item} {text : Text} {d : Descriptor} (h : parse item text = .ok d) :
    ∃ ss es, Segment.readAll text = .ok ss ∧
      List.Forall₂ (fun s e => s.key? item.type.commands = some e.1 ∧ e.2 = s.request) ss es ∧
      d = ofEntries item.name item.type.states es := by
  obtain ⟨ss, es, hss, hes, hd⟩ := parse_eq_ok.1 h
  exact ⟨ss, es, hss, (Outcome.mapM_eq_ok.1 hes).imp fun _ _ => entry_ok, hd⟩

theorem parse_ok {item : Item} {text : Text} {d : Descriptor} (h : parse item text = .ok d) :
    ∃ ss, Segment.readAll text = .ok ss ∧
      ∀ k, d.get? k = (ss.reverse.find? (Segment.isFor item.type.commands k)).map Segment.request := by
  obtain ⟨ss, es, hss, hall, rfl⟩ := entries_of_parse h
  exact ⟨ss, hss, get?_of_forall₂ hall item.name item.type.states⟩

/-- **One segment answers.**  What an accepted text answers for a command, or without one, comes from `answering?`. -/
theorem answer_of_parse {item : Item} {text : Text} {d : Descriptor} (h : parse item text = .ok d) :
    ∃ ss, Segment.readAll text = .ok ss ∧
      d.inbound = (Segment.answering? item.type.commands ss none).map Segment.request ∧
      ∀ k, d.resolve k = (Segment.answering? item.type.commands ss (some k)).map Segment.request := by
  obtain ⟨ss, hss, hget⟩ := parse_ok h
  refine ⟨ss, hss, ?_, fun k => ?_⟩
  · have hin : Segment.isFor item.type.commands .inbound = Segment.isInbound := funext Segment.isFor_inbound
    rw [inbound, hget, hin]
    rfl
  · have hwild : Segment.isFor item.type.commands .wildcard = Segment.isWildcard := funext Segment.isFor_wildcard
    simp only [resolve, Segment.answering?, hget, hwild]
    cases ss.reverse.find? (Segment.isFor item.type.commands k) with
    | some s => rfl
    | none => cases k <;> rfl

end Descriptor

end RequestRules
