import RequestRules.Proofs.Descriptor
import RequestRules.Proofs.Grammar.Append

/-!
# Rules that are added

`Descriptor.parse_append` — behind a text that ends with a closing bracket, more rules can be added without a change to
how the others are read.  For a command the request of the later text counts, then that of the earlier one, and only if
neither has one of its own the wildcard, for which the later text counts first, too.
-/

namespace RequestRules

namespace Descriptor

theorem get?_ofEntries_append (item : Text) (states : List ValueKind) (es fs : List (Key × Request)) (k : Key) :
    (ofEntries item states (es ++ fs)).get? k =
      ((ofEntries item states fs).get? k).or ((ofEntries item states es).get? k) := by
  simp only [get?_ofEntries, List.reverse_append, List.find?_append, Option.map_or]

theorem resolve_eq (d : Descriptor) (k : Key) :
    d.resolve k = (d.get? k).or (if k = .changed ∨ k = .inbound then none else d.get? .wildcard) := by
  unfold resolve
  cases d.get? k with
  | some r => rfl
  | none => cases k <;> rfl

variable {item : Item} {a b : Text} {w : CodePoint}

/-- The requests of two texts together are those of the later one, and of the earlier one where the later has none. -/
theorem get?_append {da db : Descriptor} (hread : Segment.readAll (a ++ w :: b) = do
      let ss ← Segment.readAll a
      let ts ← Segment.readAll b
      return ss ++ ts) (hda : parse item a = .ok da) (hdb : parse item b = .ok db) :
    ∃ d, parse item (a ++ w :: b) = .ok d ∧ ∀ k, d.get? k = (db.get? k).or (da.get? k) := by
  obtain ⟨ss, es, hss, hes, rfl⟩ := parse_eq_ok.1 hda
  obtain ⟨ts, fs, hts, hfs, rfl⟩ := parse_eq_ok.1 hdb
  have hboth : Segment.readAll (a ++ w :: b) = .ok (ss ++ ts) := by
    rw [hread, hss, hts]
    rfl
  have hentries : (ss ++ ts).mapM (entry item.type.commands) = .ok (es ++ fs) := by
    rw [List.mapM_append, hes, hfs]
    rfl
  exact ⟨_, parse_eq_ok.2 ⟨ss ++ ts, es ++ fs, hboth, hentries, rfl⟩, get?_ofEntries_append _ _ es fs⟩

/-- **Rules that are added do not change how the others are read.**  Behind a configuration text that ends with a closing
bracket and a white space another one can be put: the segments are those of both, they are read if those of both texts
are, and for a command the later text is asked first, then the earlier one, then both for the wildcard. -/
theorem parse_append {xs ys : List (Direction × Text)} (ha : Direction.segments a = .ok xs)
    (hb : Direction.segments b = .ok ys) (hend : a.getLast? = some (.char ']')) (hw : isAsciiBlank w = true) (hn : w ≠ '\n') :
    Direction.segments (a ++ w :: b) = .ok (xs ++ ys) ∧
    (∀ zs, Segment.readAll (a ++ w :: b) = .ok zs ↔
      ∃ ss ts, Segment.readAll a = .ok ss ∧ Segment.readAll b = .ok ts ∧ zs = ss ++ ts) ∧
    ∀ item da db, parse item a = .ok da → parse item b = .ok db →
      ∃ d, parse item (a ++ w :: b) = .ok d ∧
        ∀ k, d.resolve k = ((db.get? k).or (da.get? k)).or
          (if k = .changed ∨ k = .inbound then none else (db.get? .wildcard).or (da.get? .wildcard)) := by
  have hread := Segment.readAll_append ha hb hend hw hn
  refine ⟨Direction.segments_append ha hb hend hw hn, fun zs => ?_, fun item da db hda hdb => ?_⟩
  · rw [hread, Outcome.bind_eq_ok]
    constructor
    · rintro ⟨ss, hss, h⟩
      obtain ⟨ts, hts, h⟩ := Outcome.bind_eq_ok.1 h
      exact ⟨ss, ts, hss, hts, (Except.ok.inj h).symm⟩
    · rintro ⟨ss, ts, hss, hts, rfl⟩
      exact ⟨ss, hss, Outcome.bind_eq_ok.2 ⟨ts, hts, rfl⟩⟩
  · obtain ⟨d, hd, hget⟩ := get?_append hread hda hdb
    refine ⟨d, hd, fun k => ?_⟩
    rw [resolve_eq, hget, hget]

/-- A lamp whose rule for ON comes from the later text and whose rule for OFF from the earlier one, which has a mark that
opens no segment in it; for polling there is none, and the wildcard does not stand in for it. -/
theorem parse_append_lamp :
    let lamp : Item := ⟨.switch, .of "Lamp", .of "Lamp"⟩
    let a := Text.of ">[ON:GET:http://x/on] >[OFF:GET:http://x/off] < ]"
    let b := Text.of ">[ON:PUT:http://y/on]\t>[*:GET:http://y/any]"
    ∃ d, Descriptor.parse lamp (a ++ .char '\t' :: b) = .ok d ∧
      (d.resolve (.command (.word .onOff true))).map Request.url = some (.of "http://y/on") ∧
      (d.resolve (.command (.word .onOff false))).map Request.url = some (.of "http://x/off") ∧
      d.resolve .inbound = none := by
  intro lamp a b
  let sent (method url : String) : Request := ⟨.of url, some (.of method), [], 0, none, none⟩
  let da : Descriptor := ⟨lamp.name, lamp.type.states, [(.command (.word .onOff true), sent "GET" "http://x/on"),
    (.command (.word .onOff false), sent "GET" "http://x/off")]⟩
  let db : Descriptor := ⟨lamp.name, lamp.type.states, [(.command (.word .onOff true), sent "PUT" "http://y/on"),
    (.wildcard, sent "GET" "http://y/any")]⟩
  have hxs : Direction.segments a =
      .ok [(.outbound, .of "ON:GET:http://x/on"), (.outbound, .of "OFF:GET:http://x/off")] := by
    decide +kernel
  have hys : Direction.segments b =
      .ok [(.outbound, .of "ON:PUT:http://y/on"), (.outbound, .of "*:GET:http://y/any")] := by
    decide +kernel
  have hda : parse lamp a = .ok da := by decide +kernel
  have hdb : parse lamp b = .ok db := by decide +kernel
  obtain ⟨_, _, hparse⟩ := parse_append hxs hys (by decide) (by decide : isAsciiBlank '\t' = true) (by decide)
  obtain ⟨d, hd, hresolve⟩ := hparse lamp da db hda hdb
  refine ⟨d, hd, ?_, ?_, ?_⟩ <;> rw [hresolve] <;> decide +kernel

end Descriptor

end RequestRules
