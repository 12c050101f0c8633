import RequestRules.Proofs.Descriptor.Joined
import RequestRules.Proofs.Grammar.Parts
import RequestRules.Proofs.Json.Apart

/-!
# Descriptors come back

`Descriptor.ofPlain?` takes a plain form apart again: fields by their names, keys by the kind that stands beside them.
From the plain form of a descriptor with readable keys comes that descriptor (`Descriptor.ofPlain?_plain`).  Its JSON text
says everything about the descriptor but which characters are written as two surrogates (`Descriptor.determined_by_text`).
-/

namespace RequestRules

/-! ## Taking plain forms apart -/

namespace Json

def text? : Json → Option Text
  | text t => some t
  | _ => none

def int? : Json → Option Int
  | int n => some n
  | _ => none

def items? : Json → Option (List Json)
  | list xs => some xs
  | _ => none

def option? : Json → Option (Option Text)
  | null => some none
  | text t => some (some t)
  | _ => none

def field? (name : Text) : Json → Option Json
  | object fs => (fs.find? fun f => f.1 = name).map (·.2)
  | _ => none

theorem option?_ofOption (t : Option Text) : (ofOption t).option? = some t := by
  cases t <;> rfl

end Json

def Header.ofPlain? : Json → Option Header
  | .list [.text k, .text v] => some (k, v)
  | _ => none

def Request.ofPlain? (j : Json) : Option Request := do
  let url ← (← j.field? (.of "url")).text?
  let method ← (← j.field? (.of "http_method")).option?
  let headers ← (← (← j.field? (.of "headers")).items?).mapM Header.ofPlain?
  let interval ← (← j.field? (.of "refresh_interval")).int?
  let transformation ← (← j.field? (.of "transformation")).option?
  let body ← (← j.field? (.of "body")).option?
  return { url, method, headers, interval, transformation, body }

def Key.mark? (t : Text) : Option Key := [changed, wildcard, inbound].find? fun k => k.render = t

def Key.ofText? (kind t : Text) : Option Key :=
  if kind = .of "BindingKey" then mark? t
  else (ValueKind.ofName? kind).bind fun k => ((Value.read k t).toOption).map command

namespace Descriptor

def stateOfPlain? (j : Json) : Option ValueKind := j.text?.bind ValueKind.ofName?

def entryOfPlain? (j : Json) : Option (Key × Request) := do
  let key ← (← j.field? (.of "key")).text?
  let kind ← (← j.field? (.of "kind")).text?
  let element ← j.field? (.of "element")
  return (← Key.ofText? kind key, ← Request.ofPlain? element)

def ofPlain? (j : Json) : Option Descriptor := do
  let item ← (← j.field? (.of "item")).text?
  let states ← (← (← j.field? (.of "accepted_data_types")).items?).mapM stateOfPlain?
  let entries ← (← (← j.field? (.of "elements")).items?).mapM entryOfPlain?
  return { item, states, entries }

end Descriptor

/-! ## What is taken apart -/

/-- What is made of each element is taken apart into that element. -/
theorem mapM_map_eq_some {α β : Type} {f : β → Option α} {g : α → β} {xs : List α} (h : ∀ x ∈ xs, f (g x) = some x) :
    (xs.map g).mapM f = some xs := by
  induction xs with
  | nil => rfl
  | cons x xs ih =>
    rw [List.map_cons, List.mapM_cons, h x List.mem_cons_self, ih fun y hy => h y (List.mem_cons_of_mem _ hy)]
    rfl

theorem Header.mapM_ofPlain? (hs : List Header) :
    (hs.map fun (k, v) => Json.list [.text k, .text v]).mapM Header.ofPlain? = some hs :=
  mapM_map_eq_some fun _ _ => rfl

theorem Request.ofPlain?_plain (r : Request) : ofPlain? r.plain = some r := by
  unfold ofPlain? plain
  simp [-List.mapM_map, Json.field?, Text.of, Json.text?, Json.option?_ofOption, Json.items?, Json.int?, Header.plain,
    Header.mapM_ofPlain?]

theorem ValueKind.ofName?_name (k : ValueKind) : ofName? k.name = some k := by
  cases k with
  | choice c => cases c <;> decide
  | _ => decide

theorem ValueKind.name_ne (k : ValueKind) : k.name ≠ .of "BindingKey" := by
  cases k with
  | choice c => cases c <;> decide
  | _ => decide

/-- A key comes back from its text beside its kind. -/
theorem Key.ofText?_render {k : Key} (h : k.Readable) : ofText? k.kindName k.render = some k := by
  cases k with
  | command v =>
    have hread := Value.read_render (Value.valid_iff.2 h)
    show (if v.kind.name = .of "BindingKey" then mark? v.render
      else (ValueKind.ofName? v.kind.name).bind fun k => ((Value.read k v.render).toOption).map command) = _
    rw [if_neg v.kind.name_ne, ValueKind.ofName?_name, Option.bind_some, hread]
    rfl
  | _ => decide

namespace Descriptor

theorem entryOfPlain?_plainEntry {e : Key × Request} (h : e.1.Readable) : entryOfPlain? (plainEntry e) = some e := by
  unfold entryOfPlain? plainEntry
  simp [Json.field?, Text.of, Json.text?, Key.ofText?_render h, Request.ofPlain?_plain]

theorem ofPlain?_plain {d : Descriptor} (h : ∀ e ∈ d.entries, e.1.Readable) : ofPlain? d.plain = some d := by
  have hstates : (d.states.map fun k => Json.text k.name).mapM stateOfPlain? = some d.states :=
    mapM_map_eq_some fun k _ => k.ofName?_name
  have hentries : (d.entries.map plainEntry).mapM entryOfPlain? = some d.entries :=
    mapM_map_eq_some fun e he => entryOfPlain?_plainEntry (h e he)
  unfold ofPlain? plain ValueKind.plainList
  simp [-List.mapM_map, Json.field?, Text.of, Json.text?, Json.items?, hstates, hentries]

theorem readable_joined {d : Descriptor} (h : ∀ e ∈ d.entries, e.1.Readable) : ∀ e ∈ d.joined.entries, e.1.Readable := by
  intro e he
  obtain ⟨x, hx, rfl⟩ := List.mem_map.1 he
  exact (h x hx).joined

/-! ## What is written as JSON -/

theorem exact_ofOption (t : Option Text) : (Json.ofOption t).Exact := by
  cases t with
  | none => exact .null
  | some t => exact .text t

theorem exact_request (r : Request) : r.plain.Exact := by
  have hheaders : (Header.plain r.headers).Exact := by
    refine .list fun j hj => ?_
    obtain ⟨x, _, rfl⟩ := List.mem_map.1 hj
    refine .list fun i hi => ?_
    simp only [List.mem_cons, List.not_mem_nil, or_false] at hi
    rcases hi with rfl | rfl <;> exact .text _
  refine .object (by simp [Text.of]) fun f hf => ?_
  simp only [List.mem_cons, List.not_mem_nil, or_false] at hf
  rcases hf with rfl | rfl | rfl | rfl | rfl | rfl
  · exact .text _
  · exact exact_ofOption _
  · exact hheaders
  · exact .int _
  · exact exact_ofOption _
  · exact exact_ofOption _

theorem exact_plainEntry (e : Key × Request) : (plainEntry e).Exact := by
  refine .object (by simp [Text.of]) fun f hf => ?_
  simp only [List.mem_cons, List.not_mem_nil, or_false] at hf
  rcases hf with rfl | rfl | rfl
  · exact .text _
  · exact .text _
  · exact exact_request _

theorem exact_plain (d : Descriptor) : d.plain.Exact := by
  refine .object (by simp [Text.of]) fun f hf => ?_
  simp only [List.mem_cons, List.not_mem_nil, or_false] at hf
  rcases hf with rfl | rfl | rfl
  · exact .text _
  · refine .list fun j hj => ?_
    obtain ⟨k, _, rfl⟩ := List.mem_map.1 hj
    exact .text _
  · refine .list fun j hj => ?_
    obtain ⟨e, _, rfl⟩ := List.mem_map.1 hj
    exact exact_plainEntry e

theorem isShort_plain {d : Descriptor} (h : ∀ e ∈ d.entries, Numeral.isInLimit e.2.interval = true) :
    d.plain.isShort = true := by
  have hoption : ∀ t, (Json.ofOption t).isShort = true := by rintro (_ | t) <;> rfl
  have hheaders : ∀ hs, (Header.plain hs).isShort = true := by
    intro hs
    rw [Header.plain, Json.isShort, Json.areShort_eq, List.all_map]
    exact List.all_eq_true.2 fun _ _ => rfl
  have hrequest : ∀ r : Request, Numeral.isInLimit r.interval = true → r.plain.isShort = true := by
    intro r hr
    simp [Request.plain, Json.isShort, Json.fieldsAreShort, hoption, hheaders, hr]
  have hstates : (ValueKind.plainList d.states).isShort = true := by
    rw [ValueKind.plainList, Json.isShort, Json.areShort_eq, List.all_map]
    exact List.all_eq_true.2 fun _ _ => rfl
  have hentries : Json.areShort (d.entries.map plainEntry) = true := by
    rw [Json.areShort_eq, List.all_map]
    refine List.all_eq_true.2 fun e he => ?_
    simp [plainEntry, Json.isShort, Json.fieldsAreShort, hrequest e.2 (h e he)]
  simp [plain, Json.isShort, Json.fieldsAreShort, hstates, hentries]

/-- The text of a descriptor is read as the plain form of the joined descriptor. -/
theorem read?_plain (d : Descriptor) {indent : Option Text} (h : Json.IsBlank indent) :
    Json.read? (d.plain.render indent) = some d.joined.plain := by
  rw [plain_joined]
  exact Json.read?_render (exact_plain d) h

/-- Descriptors of one text are the same, but for pairs of surrogates. -/
theorem joined_eq_of_render {d e : Descriptor} (hd : ∀ x ∈ d.entries, x.1.Readable) (he : ∀ x ∈ e.entries, x.1.Readable)
    {indent : Option Text} (h : d.plain.render indent = e.plain.render indent) : d.joined = e.joined := by
  have hplain : d.joined.plain = e.joined.plain := by
    rw [plain_joined, plain_joined]
    exact Json.joined_eq_of_render (exact_plain d) (exact_plain e) h
  have hback := ofPlain?_plain (readable_joined hd)
  rw [hplain, ofPlain?_plain (readable_joined he)] at hback
  exact (Option.some.inj hback).symm

theorem joined_eq {d : Descriptor} (h : ∀ x ∈ d.entries, x.1.Readable) (hpairs : d.plain.Unpaired) : d.joined = d := by
  have hback := ofPlain?_plain (readable_joined h)
  rw [plain_joined, (exact_plain d).joined_eq hpairs, ofPlain?_plain h] at hback
  exact (Option.some.inj hback).symm

end Descriptor

/-! ## Descriptors of accepted texts -/

theorem Key.Accepted.readable {commands : List ValueKind} {k : Key} (h : k.Accepted commands) : k.Readable := by
  cases k with
  | command v => exact h.2
  | _ => trivial

theorem Numeral.isInLimit_natCast {n : Nat} (h : n < 10 ^ limit) : isInLimit n = true := by
  unfold isInLimit
  -- the limit as a variable, so that its power is not computed
  generalize limit = k at *
  rw [decide_eq_true_eq, Int.natAbs_natCast, Nat.pow_eq]
  exact h

/-- An interval is read from no more digits than can be written again. -/
theorem Segment.isInLimit_of_read {x : Direction × Text} {s : Segment} (h : read x = .ok s) :
    Numeral.isInLimit s.interval = true := by
  obtain ⟨d, t⟩ := x
  cases d with
  | inbound =>
    obtain ⟨s', hs, rfl⟩ := Outcome.map_eq_ok.1 h
    obtain ⟨p, hparts, _, hlength, _, _, hinterval, _⟩ := Inbound.read_ok hs
    refine Numeral.isInLimit_natCast ?_
    calc s'.interval = Numeral.value p.digits := hinterval
      _ < 10 ^ p.digits.length := Numeral.value_lt (Inbound.parts?_eq_some hparts).2.2
      _ ≤ 10 ^ Numeral.limit := Nat.pow_le_pow_right (by decide) hlength
  | outbound =>
    obtain ⟨s', _, rfl⟩ := Outcome.map_eq_ok.1 h
    exact Numeral.isInLimit_natCast (Nat.pow_pos (by decide))

namespace Descriptor

/-- The entries of an accepted text have different keys, and each comes from a part of the text that was read. -/
theorem exists_segment {item : Item} {text : Text} {d : Descriptor} (h : parse item text = .ok d) :
    Distinct d.entries ∧ ∀ e ∈ d.entries, ∃ x s, Segment.read x = .ok s ∧ s.key? item.type.commands = some e.1 ∧
      e.2 = s.request := by
  obtain ⟨ss, es, hss, hall, rfl⟩ := entries_of_parse h
  refine ⟨distinct_ofEntries _ _ es, fun e he => ?_⟩
  obtain ⟨s, hs, hkey, hrequest⟩ := exists_segment_of_forall₂ hall e he
  obtain ⟨xs, _, hxs⟩ := Outcome.bind_eq_ok.1 hss
  obtain ⟨x, _, hx⟩ := Outcome.exists_of_mem_mapM hxs hs
  exact ⟨x, s, hx, hkey, hrequest⟩

theorem readable_of_parse {item : Item} {text : Text} {d : Descriptor} (h : parse item text = .ok d) :
    ∀ e ∈ d.entries, e.1.Readable := by
  intro e he
  obtain ⟨_, s, _, hkey, _⟩ := (exists_segment h).2 e he
  exact (Segment.accepted_of_key? hkey).1.readable

/-- No two entries are written with the same kind and text of their keys. -/
theorem nodup_written {es : List (Key × Request)} (h : Distinct es) (hes : ∀ e ∈ es, e.1.Readable) :
    (es.map fun e => (e.1.kindName, e.1.render)).Nodup := by
  unfold List.Nodup
  rw [List.pairwise_map]
  refine h.imp_of_mem fun {e f} he hf hne heq => hne ?_
  obtain ⟨hkind, htext⟩ := Prod.mk.inj heq
  have hkey := Key.ofText?_render (hes e he)
  rw [hkind, htext, Key.ofText?_render (hes f hf)] at hkey
  rw [Option.some.inj hkey]
  exact Key.Same.refl _

theorem isInLimit_of_parse {item : Item} {text : Text} {d : Descriptor} (h : parse item text = .ok d) :
    ∀ e ∈ d.entries, Numeral.isInLimit e.2.interval = true := by
  intro e he
  obtain ⟨x, s, hread, _, hrequest⟩ := (exists_segment h).2 e he
  rw [hrequest]
  exact Segment.isInLimit_of_read hread

theorem render_of_parse {item : Item} {text : Text} {d : Descriptor} (h : parse item text = .ok d) (indent : Option Text) :
    Document.render indent false (.descriptor d) = .ok (d.plain.render indent) := by
  have hfault : Document.fault? false (.descriptor d) = none := if_pos (isShort_plain (isInLimit_of_parse h))
  unfold Document.render
  rw [hfault]
  rfl

/-- **The JSON text of a descriptor says everything about it**, but which characters are written as two surrogates: an
accepted descriptor has a text for any indent, and with an indent of blank characters that text is read as the plain form of
the joined descriptor, which gives back that descriptor with all keys and requests in order.  The entries stand under
different pairs of kind and text, each key is read from its pair, and no interval is too long to be written.  The accepted
descriptors of that text are those that are the same when joined; and one without pairs of surrogates is the joined
descriptor itself. -/
theorem determined_by_text {item : Item} {text : Text} {d : Descriptor} (h : parse item text = .ok d)
    (indent : Option Text) :
    ∃ t, Document.render indent false (.descriptor d) = .ok t ∧
      (Json.IsBlank indent → Json.read? t = some d.joined.plain) ∧
      d.joined.plain.field? (.of "elements") = some (.list (d.joined.entries.map plainEntry)) ∧
      (∀ e ∈ d.joined.entries, Key.ofText? e.1.kindName e.1.render = some e.1 ∧ Request.ofPlain? e.2.plain = some e.2) ∧
      ofPlain? d.joined.plain = some d.joined ∧
      (d.entries.map fun e => (e.1.kindName, e.1.render)).Nodup ∧
      (∀ e ∈ d.entries, Key.ofText? e.1.kindName e.1.render = some e.1 ∧ Numeral.isInLimit e.2.interval = true) ∧
      (∀ (item' : Item) (text' : Text) (d' : Descriptor), parse item' text' = .ok d' →
        (Document.render indent false (.descriptor d') = .ok t ↔ d'.joined = d.joined)) ∧
      (d.plain.Unpaired → d.joined = d) := by
  have hreadable := readable_of_parse h
  have hjoined := readable_joined hreadable
  refine ⟨d.plain.render indent, render_of_parse h indent, read?_plain d, by simp [plain, Json.field?, Text.of],
    fun e he => ⟨Key.ofText?_render (hjoined e he), e.2.ofPlain?_plain⟩, ofPlain?_plain hjoined,
    nodup_written (exists_segment h).1 hreadable,
    fun e he => ⟨Key.ofText?_render (hreadable e he), isInLimit_of_parse h e he⟩, fun item' text' d' h' => ?_,
    joined_eq hreadable⟩
  rw [render_of_parse h' indent]
  constructor
  · intro htext
    exact joined_eq_of_render (readable_of_parse h') hreadable (Except.ok.inj htext)
  · intro hsame
    rw [← render_joined indent d', hsame, render_joined indent d]

/-- A door with a rule for polling and two for commands, of which one has the text of the mark for polling and one a
character above `U+FFFF`. -/
theorem determined_by_text_door :
    let door : Item := ⟨.text, .of "Tür", .of "Door"⟩
    let text := Text.of "<[http://x/s\x7ba=1&a=1\x7d:60:JSON(a)] >[IN_BINDING:PUT:http://x/a] >[😀:POST:http://x/b:\"]"
    ∃ d, Descriptor.parse door text = .ok d ∧ d.keys = [.inbound, .command (.text (.of "IN_BINDING")),
        .command (.text (.of "😀"))] ∧ d.joined = d ∧
      ∃ t, Document.render (some (Json.blanks 2)) false (.descriptor d) = .ok t ∧ Json.read? t = some d.plain ∧
        ofPlain? d.plain = some d := by
  intro door text
  let polled : Request := ⟨.of "http://x/s", none, [(.of "a", .of "1"), (.of "a", .of "1")], 60, some (.of "JSON=a"), none⟩
  let put : Request := ⟨.of "http://x/a", some (.of "PUT"), [], 0, none, none⟩
  let posted : Request := ⟨.of "http://x/b", some (.of "POST"), [], 0, none, some (.of "\"")⟩
  have hparse : Descriptor.parse door text = .ok ⟨door.name, door.type.states,
      [(.inbound, polled), (.command (.text (.of "IN_BINDING")), put), (.command (.text (.of "😀")), posted)]⟩ := by
    decide +kernel
  obtain ⟨t, hrender, hread, _, _, hback, _, _, _, hself⟩ := determined_by_text hparse (some (Json.blanks 2))
  have hjoined := hself (by decide +kernel)
  rw [hjoined] at hread hback
  exact ⟨_, hparse, rfl, hjoined, t, hrender, hread (Json.isBlank_blanks 2), hback⟩

/-- Two descriptors of one text: one has a pair of surrogates for its command, the other the character that they stand
for. -/
theorem not_determined_by_text_of_pair :
    let note : Item := ⟨.text, .of "Note", .of "Note"⟩
    let rule : Text → Text := fun t => .of ">[" ++ t ++ .of ":GET:http://x/a]"
    let pair : Text := [.surrogate 0x3d, .surrogate 0x600]
    ∃ d d' t, Descriptor.parse note (rule pair) = .ok d ∧ Descriptor.parse note (rule (.of "😀")) = .ok d' ∧
      d.keys = [.command (.text pair)] ∧ d'.keys = [.command (.text (.of "😀"))] ∧ d ≠ d' ∧
      Document.render none false (.descriptor d) = .ok t ∧ Document.render none false (.descriptor d') = .ok t := by
  intro note rule pair
  let sent : Request := ⟨.of "http://x/a", some (.of "GET"), [], 0, none, none⟩
  let sole : Text → Descriptor := fun t => ⟨note.name, note.type.states, [(.command (.text t), sent)]⟩
  have hpair : Descriptor.parse note (rule pair) = .ok (sole pair) := by decide +kernel
  have hsmile : Descriptor.parse note (rule (.of "😀")) = .ok (sole (.of "😀")) := by decide +kernel
  have htext : (sole pair).plain.render none = (sole (.of "😀")).plain.render none := by decide +kernel
  exact ⟨_, _, _, hpair, hsmile, rfl, rfl, by decide +kernel, render_of_parse hpair none,
    (render_of_parse hsmile none).trans (congrArg Except.ok htext.symm)⟩

end Descriptor

end RequestRules
