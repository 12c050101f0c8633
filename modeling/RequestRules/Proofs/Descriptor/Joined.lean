import RequestRules.Document
import RequestRules.Proofs.Descriptor.Lookup
import RequestRules.Proofs.Json.Layout

/-!
# Pairs of surrogates in descriptors

JSON writes a pair of surrogates like the character that both stand for.  `Descriptor.joined` is the descriptor with that
character in the place of each pair.  Its plain form is the joined plain form (`Descriptor.plain_joined`), since only texts
that a user has written hold surrogates: no mark, name, number or time beside them does.  And it has the same JSON text
(`Descriptor.render_joined`).
-/

namespace RequestRules

/-! ## Texts without surrogates -/

theorem Text.IsPlain.unpaired {t : Text} (h : t.IsPlain) : t.Unpaired := by
  induction t with
  | nil => exact List.isChain_nil
  | cons c t ih =>
    refine List.isChain_cons.2 ⟨fun d _ hpair => ?_, ih fun d hd => h d (List.mem_cons_of_mem _ hd)⟩
    have hc := h c List.mem_cons_self
    cases c with
    | char c => exact absurd (hpair.1.symm.trans (CodePoint.isHigh_char c)) (by decide)
    | surrogate n => cases hc

theorem Text.isPlain_of (s : String) : (Text.of s).IsPlain := Text.isPlain_ofChars _

namespace Numeral

theorem isPlain_ofNat (n : Nat) : (ofNat n).IsPlain := Text.isPlain_ofChars _

theorem isPlain_ofInt (n : Int) : (ofInt n).IsPlain := by
  cases n with
  | ofNat n => exact isPlain_ofNat n
  | negSucc n => exact .cons '-' (isPlain_ofNat _)

end Numeral

namespace Decimal

theorem isPlain_renderExponent (e : Int) : (renderExponent e).IsPlain := by
  refine .cons 'E' ?_
  split
  · exact Numeral.isPlain_ofInt e
  · exact .cons '+' (Numeral.isPlain_ofInt e)

theorem isPlain_pointed (n : Nat) {ds : Text} (h : ds.IsPlain) : (pointed n ds).IsPlain := by
  unfold pointed
  split
  · exact h
  · exact Text.IsPlain.append (fun c hc => h c (List.mem_of_mem_take hc))
      (.cons '.' fun c hc => h c (List.mem_of_mem_drop hc))

theorem isPlain_renderMagnitude (coefficient : Nat) (exponent : Int) : (renderMagnitude coefficient exponent).IsPlain := by
  have hdigits := Numeral.isPlain_ofNat coefficient
  unfold renderMagnitude
  dsimp only
  split_ifs
  · exact isPlain_pointed _ hdigits
  · have hzeros : ∀ n, Text.IsPlain (List.replicate n (.char '0')) := fun n c hc => by
      rw [List.eq_of_mem_replicate hc]
      rfl
    exact .cons '0' (.cons '.' ((hzeros _).append hdigits))
  · exact (isPlain_pointed 1 hdigits).append Text.isPlain_nil
  · exact (isPlain_pointed 1 hdigits).append (isPlain_renderExponent _)

theorem isPlain_render (d : Decimal) : d.render.IsPlain := by
  refine .append ?_ (isPlain_renderMagnitude _ _)
  split
  · exact .cons '-' Text.isPlain_nil
  · exact Text.isPlain_nil

end Decimal

/-! ## Values and keys -/

theorem ValueKind.isPlain_name (k : ValueKind) : k.name.IsPlain := by
  cases k with
  | choice c => cases c <;> exact Text.isPlain_of _
  | _ => exact Text.isPlain_of _

namespace Value

def joined : Value → Value
  | text t => text t.joined
  | v => v

/-- Only texts hold surrogates. -/
theorem isPlain_render {v : Value} (h : v.kind ≠ .text) : v.render.IsPlain := by
  cases v with
  | word c first => cases c <;> cases first <;> exact Text.isPlain_of _
  | decimal d => exact d.isPlain_render
  | percent d => exact d.isPlain_render
  | text t => exact absurd rfl h
  | dateTime m => exact m.isPlain_render
  | color hue s b =>
    exact (((Numeral.isPlain_ofNat hue).append (.cons ',' Text.isPlain_nil)).append
      (((Numeral.isPlain_ofNat s).append (.cons ',' Text.isPlain_nil)).append (Numeral.isPlain_ofNat b)))

theorem joined_of_ne {v : Value} (h : v.kind ≠ .text) : v.joined = v := by
  cases v with
  | text t => exact absurd rfl h
  | _ => rfl

theorem render_joined (v : Value) : v.joined.render = v.render.joined := by
  by_cases h : v.kind = .text
  · cases v with
    | text t => rfl
    | _ => cases h
  · rw [joined_of_ne h, (isPlain_render h).unpaired.joined_eq]

theorem kind_joined (v : Value) : v.joined.kind = v.kind := by
  cases v <;> rfl

theorem valid_joined {v : Value} (h : v.Valid) : v.joined.Valid := by
  cases v with
  | text t => trivial
  | _ => exact h

end Value

namespace Key

def joined : Key → Key
  | command v => command v.joined
  | k => k

theorem render_joined (k : Key) : k.joined.render = k.render.joined := by
  cases k with
  | command v => exact v.render_joined
  | _ => decide

theorem kindName_joined (k : Key) : k.joined.kindName = k.kindName := by
  cases k with
  | command v => exact congrArg ValueKind.name v.kind_joined
  | _ => rfl

theorem Readable.joined {k : Key} (h : k.Readable) : k.joined.Readable := by
  cases k with
  | command v => exact Value.valid_iff.1 (Value.valid_joined (Value.valid_iff.2 h))
  | _ => trivial

end Key

/-! ## Descriptors -/

def Header.joined (h : Header) : Header := (h.1.joined, h.2.joined)

def Request.joined (r : Request) : Request where
  url := r.url.joined
  method := r.method.map Text.joined
  headers := r.headers.map Header.joined
  interval := r.interval
  transformation := r.transformation.map Text.joined
  body := r.body.map Text.joined

def Descriptor.joined (d : Descriptor) : Descriptor where
  item := d.item.joined
  states := d.states
  entries := d.entries.map fun e => (e.1.joined, e.2.joined)

theorem Json.joined_ofOption (t : Option Text) : (Json.ofOption t).joined = Json.ofOption (t.map Text.joined) := by
  cases t <;> rfl

theorem Json.joined_object_of (fs : List (Text × Json)) (names : List String) (hnodup : names.Nodup)
    (h : fs.map (·.1) = names.map Text.of) : (Json.object fs).joined = .object (fs.map fun f => (f.1, f.2.joined)) := by
  refine Json.joined_object (h ▸ hnodup.map fun _ _ => Text.of_injective) fun f hf => ?_
  have hname : f.1 ∈ names.map Text.of := h ▸ List.mem_map_of_mem hf
  obtain ⟨s, _, hs⟩ := List.mem_map.1 hname
  exact hs ▸ (Text.isPlain_of s).unpaired

theorem Request.plain_joined (r : Request) : r.joined.plain = r.plain.joined := by
  have hheaders : (Header.plain r.headers).joined = Header.plain (r.headers.map Header.joined) := by
    rw [Header.plain, Json.joined_list, Header.plain, List.map_map, List.map_map]
    exact congrArg Json.list (List.map_congr_left fun h _ => rfl)
  have hobject := Json.joined_object_of [(.of "url", .text r.url), (.of "http_method", .ofOption r.method),
      (.of "headers", Header.plain r.headers), (.of "refresh_interval", .int r.interval),
      (.of "transformation", .ofOption r.transformation), (.of "body", .ofOption r.body)]
    ["url", "http_method", "headers", "refresh_interval", "transformation", "body"] (by decide) rfl
  rw [plain, plain, hobject]
  simp only [List.map_cons, List.map_nil, Json.joined_ofOption, hheaders]
  rfl

namespace Descriptor

theorem plainEntry_joined (e : Key × Request) : plainEntry (e.1.joined, e.2.joined) = (plainEntry e).joined := by
  have hobject := Json.joined_object_of [(.of "key", .text e.1.render), (.of "kind", .text e.1.kindName),
    (.of "element", e.2.plain)] ["key", "kind", "element"] (by decide) rfl
  have hkind : e.1.kindName.joined = e.1.kindName := by
    cases e.1 with
    | command v => exact v.kind.isPlain_name.unpaired.joined_eq
    | _ => exact (Text.isPlain_of _).unpaired.joined_eq
  rw [plainEntry, plainEntry, hobject]
  simp only [List.map_cons, List.map_nil, Key.render_joined, Key.kindName_joined, Request.plain_joined, Json.joined, hkind]

/-- **The plain form of the joined descriptor** is the joined plain form. -/
theorem plain_joined (d : Descriptor) : d.joined.plain = d.plain.joined := by
  have hobject := Json.joined_object_of [(.of "item", .text d.item),
    (.of "accepted_data_types", ValueKind.plainList d.states), (.of "elements", .list (d.entries.map plainEntry))]
    ["item", "accepted_data_types", "elements"] (by decide) rfl
  have hstates : (ValueKind.plainList d.states).joined = ValueKind.plainList d.states := by
    rw [ValueKind.plainList, Json.joined_list, List.map_map]
    exact congrArg Json.list (List.map_congr_left fun k _ => congrArg Json.text k.isPlain_name.unpaired.joined_eq)
  have hentries : (Json.list (d.entries.map plainEntry)).joined =
      .list ((d.entries.map fun e => (e.1.joined, e.2.joined)).map plainEntry) := by
    rw [Json.joined_list, List.map_map, List.map_map]
    exact congrArg Json.list (List.map_congr_left fun e _ => (plainEntry_joined e).symm)
  rw [plain, plain, hobject]
  simp only [List.map_cons, List.map_nil, hstates, hentries]
  rfl

/-! ## Texts -/

section Texts

variable (indent : Option Text) (depth : Nat)

theorem renderAt_text_joined (t : Text) : (Json.text t.joined).renderAt indent depth = (Json.text t).renderAt indent depth :=
  Json.quote_joined t

theorem renderAt_ofOption_joined (t : Option Text) :
    (Json.ofOption (t.map Text.joined)).renderAt indent depth = (Json.ofOption t).renderAt indent depth := by
  cases t with
  | none => rfl
  | some t => exact renderAt_text_joined indent depth t

theorem renderAt_headers_joined (hs : List Header) :
    (Header.plain (hs.map Header.joined)).renderAt indent depth = (Header.plain hs).renderAt indent depth := by
  rw [Header.plain, Header.plain, Json.renderAt_list, Json.renderAt_list, List.map_map, List.map_map, List.map_map]
  refine congrArg _ (List.map_congr_left fun h _ => ?_)
  show (Json.list [.text h.1.joined, .text h.2.joined]).renderAt indent (depth + 1) = _
  rw [Json.renderAt_list, List.map_cons, List.map_cons, renderAt_text_joined, renderAt_text_joined]
  exact (Json.renderAt_list indent (depth + 1) [.text h.1, .text h.2]).symm

theorem renderAt_request_joined (r : Request) : r.joined.plain.renderAt indent depth = r.plain.renderAt indent depth := by
  rw [Request.plain, Request.plain, Json.renderAt_object, Json.renderAt_object]
  simp only [List.map_cons, List.map_nil, Request.joined, renderAt_text_joined, renderAt_ofOption_joined,
    renderAt_headers_joined]

theorem renderAt_plainEntry_joined (e : Key × Request) :
    (plainEntry (e.1.joined, e.2.joined)).renderAt indent depth = (plainEntry e).renderAt indent depth := by
  rw [plainEntry, plainEntry, Json.renderAt_object, Json.renderAt_object]
  simp only [List.map_cons, List.map_nil, Key.render_joined, Key.kindName_joined, renderAt_text_joined,
    renderAt_request_joined]

/-- **A descriptor is written like the joined descriptor.** -/
theorem render_joined (d : Descriptor) : d.joined.plain.render indent = d.plain.render indent := by
  have hentries : ∀ depth, (Json.list (d.joined.entries.map plainEntry)).renderAt indent depth =
      (Json.list (d.entries.map plainEntry)).renderAt indent depth := by
    intro depth
    rw [joined, Json.renderAt_list, Json.renderAt_list, List.map_map, List.map_map, List.map_map]
    exact congrArg _ (List.map_congr_left fun e _ => renderAt_plainEntry_joined indent (depth + 1) e)
  rw [Json.render, Json.render, plain, plain, Json.renderAt_object, Json.renderAt_object]
  simp only [List.map_cons, List.map_nil, hentries]
  simp only [joined, renderAt_text_joined]

end Texts

end Descriptor

end RequestRules
