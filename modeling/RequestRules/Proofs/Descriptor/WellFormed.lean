import RequestRules.Proofs.Descriptor
import RequestRules.Proofs.Grammar.Shape
import RequestRules.Proofs.Value

/-!
# Descriptors of accepted texts are well-formed

`Descriptor.WellFormed` says what holds of every descriptor that a text gives an item: its keys differ, each is a mark or
a value of a kind that the item accepts, the request for polling is the one without a method, and each request has the
parts that belong to its direction.  `Descriptor.wellFormed_of_parse` proves it, and that the rules for polling and those
for sending do not get in each other's way.
-/

namespace RequestRules

/-! ## Keys -/

/-- The key is a mark, or a value that can be read for one of the kinds. -/
def Key.Accepted (commands : List ValueKind) : Key → Prop
  | changed | wildcard | inbound => True
  | command v => v.kind ∈ commands ∧ ∃ t, Value.read v.kind t = .ok v

namespace Segment

variable {commands : List ValueKind} {s : Segment} {k : Key}

/-- The key of a segment is for polling exactly if the segment is, and is one that the kinds accept. -/
theorem accepted_of_key? (h : s.key? commands = some k) : k.Accepted commands ∧ (k = .inbound ↔ s.isInbound = true) := by
  cases s with
  | inbound s =>
    cases h
    exact ⟨trivial, iff_of_true rfl rfl⟩
  | outbound s =>
    rw [key?_outbound] at h
    split_ifs at h
    · cases h
      exact ⟨trivial, iff_of_false (by simp) (by simp [isInbound])⟩
    · cases h
      exact ⟨trivial, iff_of_false (by simp) (by simp [isInbound])⟩
    · obtain ⟨v, hv, rfl⟩ := Option.map_eq_some_iff.1 h
      obtain ⟨hkind, hread⟩ := Value.read_of_readAny? hv
      exact ⟨⟨hkind, s.command, hread⟩, iff_of_false (by simp) (by simp [isInbound])⟩

theorem isInbound_iff : s.isInbound = true ↔ s.request.method = none := by
  cases s with
  | inbound s => exact iff_of_true rfl rfl
  | outbound s => exact iff_of_false (by simp [isInbound]) (by simp [request, method?])

/-- A segment for polling is found by no other key. -/
theorem isFor_of_isInbound (hk : k ≠ .inbound) (hs : s.isInbound = true) : s.isFor commands k = false := by
  cases s with
  | inbound s =>
    have hsame : ¬ Key.inbound.Same k := by
      cases k <;> simp_all [Key.Same]
    have hfor : isFor commands k (inbound s) = decide (Key.inbound.Same k) := rfl
    rw [hfor, decide_eq_false hsame]
  | outbound s => exact absurd hs (by simp [isInbound])

end Segment

/-! ## Requests -/

namespace Request

/-- The parts of a request that belong together. -/
structure WellFormed (q : Request) : Prop where
  /-- a request for polling says what to do with the response -/
  polling : q.method = none → q.body = none ∧ ∃ t, q.transformation = some t
  /-- only a POST sends something along -/
  sending : ∀ m, q.method = some m → (∀ c ∈ m, c.isUpper = true) ∧ q.interval = 0 ∧
    (m ≠ Outbound.post → q.body = none ∧ q.transformation = none)
  notBoth : q.transformation = none ∨ q.body = none
  headers : ∀ h ∈ q.headers, h.Writable

end Request

theorem Segment.Shapely.request {s : Segment} (h : s.Shapely) : s.request.WellFormed := by
  cases s with
  | inbound s =>
    refine ⟨fun _ => ⟨rfl, _, rfl⟩, fun m hm => ?_, .inr rfl, h⟩
    exact absurd hm (by simp [Segment.request, Segment.method?])
  | outbound s =>
    refine ⟨fun hm => ?_, fun m hm => ?_, h.notBoth, h.headers⟩
    · exact absurd hm (by simp [Segment.request, Segment.method?])
    · have hmethod : s.method = m := Option.some.inj hm
      rw [← hmethod]
      exact ⟨h.method, rfl, h.post⟩

/-! ## Descriptors -/

namespace Descriptor

def Distinct (es : List (Key × Request)) : Prop := es.Pairwise fun e f => ¬ e.1.Same f.1

theorem distinct_put {es : List (Key × Request)} (h : Distinct es) (e : Key × Request) : Distinct (put es e) := by
  have hput : put es e = es.filter (fun x => ¬ x.1.Same e.1) ++ [e] := rfl
  rw [hput]
  refine List.pairwise_append.2 ⟨h.filter _, List.pairwise_singleton _ e, fun x hx y hy => ?_⟩
  rw [List.mem_singleton.1 hy]
  simpa using (List.mem_filter.1 hx).2

theorem distinct_foldl_put (es acc : List (Key × Request)) (h : Distinct acc) : Distinct (es.foldl put acc) := by
  induction es generalizing acc with
  | nil => exact h
  | cons e es ih => exact ih (put acc e) (distinct_put h e)

theorem mem_foldl_put {es acc : List (Key × Request)} {x : Key × Request} (h : x ∈ es.foldl put acc) :
    x ∈ es ∨ x ∈ acc := by
  induction es generalizing acc with
  | nil => exact .inr h
  | cons e es ih =>
    rcases ih h with h | h
    · exact .inl (List.mem_cons_of_mem _ h)
    · rcases List.mem_append.1 h with h | h
      · exact .inr (List.mem_filter.1 h).1
      · exact .inl (List.mem_cons.2 (.inl (List.mem_singleton.1 h)))

/-- Of two entries that have the same key only one is there. -/
theorem get?_of_mem {d : Descriptor} (h : Distinct d.entries) {e : Key × Request} (he : e ∈ d.entries) :
    d.get? e.1 = some e.2 := by
  obtain ⟨front, back, heq⟩ := List.append_of_mem he
  have hfront : ∀ x ∈ front, ¬ x.1.Same e.1 := by
    rw [Distinct, heq] at h
    exact fun x hx => (List.pairwise_append.1 h).2.2 x hx e List.mem_cons_self
  have hnone : (front.find? fun x => decide (x.1.Same e.1)) = none := by
    rw [List.find?_eq_none]
    simpa using hfront
  have hself : decide (e.1.Same e.1) = true := decide_eq_true (Key.Same.refl e.1)
  rw [get?, heq, List.find?_append, hnone, Option.none_or, List.find?_cons, hself]
  rfl

section OfEntries

variable {item : Text} {states : List ValueKind} {es : List (Key × Request)} {e : Key × Request}

theorem distinct_ofEntries (item : Text) (states : List ValueKind) (es : List (Key × Request)) :
    Distinct (ofEntries item states es).entries := distinct_foldl_put es [] List.Pairwise.nil

theorem mem_of_mem_ofEntries (he : e ∈ (ofEntries item states es).entries) : e ∈ es :=
  (mem_foldl_put he).resolve_right List.not_mem_nil

end OfEntries

/-- What holds of every descriptor of an item that accepts commands of these kinds. -/
structure WellFormed (commands : List ValueKind) (d : Descriptor) : Prop where
  distinct : Distinct d.entries
  accepted : ∀ e ∈ d.entries, e.1.Accepted commands
  inbound_iff : ∀ e ∈ d.entries, e.1 = .inbound ↔ e.2.method = none
  requests : ∀ e ∈ d.entries, e.2.WellFormed

/-- The requests for polling and for sending come from the segments of their own direction: under the mark for polling
stands the last segment for it, and under any other key what would stand there without those segments. -/
def Separate (commands : List ValueKind) (ss : List Segment) (d : Descriptor) : Prop :=
  d.inbound = (ss.reverse.find? Segment.isInbound).map Segment.request ∧
    ∀ k, k ≠ .inbound → d.get? k =
      ((ss.filter fun s => !s.isInbound).reverse.find? (Segment.isFor commands k)).map Segment.request

section Entries

variable {commands : List ValueKind} {ss : List Segment} {es : List (Key × Request)}

/-- Each entry has a segment that it comes from. -/
theorem exists_segment_of_forall₂ (h : List.Forall₂ (fun s e => s.key? commands = some e.1 ∧ e.2 = s.request) ss es)
    {item : Text} {states : List ValueKind} : ∀ e ∈ (ofEntries item states es).entries, ∃ s ∈ ss,
      s.key? commands = some e.1 ∧ e.2 = s.request :=
  fun _ he => Outcome.exists_of_mem_right h (mem_of_mem_ofEntries he)

theorem wellFormed_of_forall₂ (h : List.Forall₂ (fun s e => s.key? commands = some e.1 ∧ e.2 = s.request) ss es)
    (hss : ∀ s ∈ ss, s.Shapely) (item : Text) (states : List ValueKind) :
    (ofEntries item states es).WellFormed commands := by
  refine ⟨distinct_ofEntries item states es, fun e he => ?_, fun e he => ?_, fun e he => ?_⟩
  all_goals obtain ⟨s, hs, hkey, hrequest⟩ := exists_segment_of_forall₂ h e he
  · exact (Segment.accepted_of_key? hkey).1
  · rw [(Segment.accepted_of_key? hkey).2, Segment.isInbound_iff, hrequest]
  · rw [hrequest]
    exact (hss s hs).request

theorem separate_of_forall₂ (h : List.Forall₂ (fun s e => s.key? commands = some e.1 ∧ e.2 = s.request) ss es)
    (item : Text) (states : List ValueKind) : (ofEntries item states es).Separate commands ss := by
  have hget := get?_of_forall₂ h item states
  constructor
  · have hin : Segment.isFor commands .inbound = Segment.isInbound := funext Segment.isFor_inbound
    rw [inbound, hget, hin]
  · intro k hk
    -- a segment for polling is never found by `k`, so leaving such segments out changes nothing
    have hsame : ∀ s : Segment, (!s.isInbound && s.isFor commands k) = s.isFor commands k := by
      intro s
      cases hs : s.isInbound with
      | true => rw [Segment.isFor_of_isInbound hk hs]; rfl
      | false => rfl
    rw [hget, ← List.filter_reverse, List.find?_filter]
    simp [hsame]

end Entries

/-- **Accepted texts give well-formed descriptors**, in which polling and sending are kept apart. -/
theorem wellFormed_of_parse {item : Item} {text : Text} {d : Descriptor} (h : parse item text = .ok d) :
    d.WellFormed item.type.commands ∧ ∃ ss, Segment.readAll text = .ok ss ∧ d.Separate item.type.commands ss := by
  obtain ⟨ss, es, hss, hall, rfl⟩ := entries_of_parse h
  have hshapely : ∀ s ∈ ss, s.Shapely := fun s hs => Segment.shapely_of_mem_readAll hss hs
  exact ⟨wellFormed_of_forall₂ hall hshapely item.name item.type.states, ss, hss,
    separate_of_forall₂ hall item.name item.type.states⟩

/-- A door with a command that is written as the mark for polling is shown, and has it twice, beside the rule for polling,
and a wildcard with a body that is left out. -/
theorem wellFormed_of_parse_door :
    let door : Item := ⟨.text, .of "Door", .of "Door"⟩
    let text := Text.of
      ">[IN_BINDING:GET:x/a] <[http://x/s\x7ba=1\x7d:60:REGEX(.*)] >[*:PUT:http://x/b:c] >[IN_BINDING:POST:http://x/d:e]"
    ∃ d, Descriptor.parse door text = .ok d ∧ d.keys = [.inbound, .wildcard, .command (.text (.of "IN_BINDING"))] ∧
      d.WellFormed door.type.commands ∧ ∃ ss, Segment.readAll text = .ok ss ∧ d.Separate door.type.commands ss := by
  intro door text
  let polled : Request := ⟨.of "http://x/s", none, [(.of "a", .of "1")], 60, some (.of "REGEX=.*"), none⟩
  let put : Request := ⟨.of "http://x/b", some (.of "PUT"), [], 0, none, none⟩
  let posted : Request := ⟨.of "http://x/d", some (.of "POST"), [], 0, none, some (.of "e")⟩
  have hparse : Descriptor.parse door text = .ok ⟨door.name, door.type.states,
      [(.inbound, polled), (.wildcard, put), (.command (.text (.of "IN_BINDING")), posted)]⟩ := by
    decide +kernel
  exact ⟨_, hparse, rfl, wellFormed_of_parse hparse⟩

end Descriptor

end RequestRules
