import RequestRules.Grammar.Header
import RequestRules.Proofs.Text

/-!
# Header fragments come back

`Header.parse` undoes `Header.render` for all headers that can be written (`Header.Writable`): the key holds neither `=`
nor `&`, the value no `&`.  It reads no others (`Header.writable_of_mem_parse`).  Without the braces around it a fragment
is read the same, unless it begins or ends with a brace of its own.

`Header.Reads` says what is read of any fragment, without the functions that read it: which brace is taken off each end
(`Header.Encloses`), and which parts are kept, in what order (`Header.Kept`).
-/

namespace RequestRules.Header

/-- The header can be written in a fragment. -/
def Writable (h : Header) : Prop := .char '=' ∉ h.1 ∧ .char '&' ∉ h.1 ∧ .char '&' ∉ h.2

instance (h : Header) : Decidable (Writable h) := by
  unfold Writable; infer_instance

def inner (hs : List Header) : Text := Text.join ['&'] (hs.map renderPart)

def optional (hs : List Header) : Text := if hs = [] then [] else render hs

theorem render_eq (hs : List Header) : render hs = .char '{' :: (inner hs ++ [.char '}']) := rfl

theorem ofPart?_renderPart {h : Header} (hw : h.Writable) : ofPart? (renderPart h) = some h :=
  Text.cut?_append hw.1

theorem mem_renderPart {h : Header} {c : CodePoint} (hc : c ∈ renderPart h) : c ∈ h.1 ∨ c = '=' ∨ c ∈ h.2 := by
  simpa [renderPart] using hc

theorem split_inner {hs : List Header} (hne : hs ≠ []) (hw : ∀ h ∈ hs, h.Writable) :
    (inner hs).split '&' = hs.map renderPart := by
  refine Text.split_join (by simpa using hne) ?_
  intro p hp
  obtain ⟨h, hh, rfl⟩ := List.mem_map.1 hp
  intro hc
  rcases mem_renderPart hc with hc | hc | hc
  · exact (hw h hh).2.1 hc
  · exact absurd hc (by decide)
  · exact (hw h hh).2.2 hc

theorem filterMap_split_inner {hs : List Header} (hw : ∀ h ∈ hs, h.Writable) :
    ((inner hs).split '&').filterMap ofPart? = hs := by
  by_cases hne : hs = []
  · subst hne; rfl
  · rw [split_inner hne hw, List.filterMap_map]
    have hsome : ∀ h ∈ hs, (ofPart? ∘ renderPart) h = some h := fun h hh => ofPart?_renderPart (hw h hh)
    rw [List.filterMap_congr hsome, List.filterMap_some]

theorem parse_render {hs : List Header} (hw : ∀ h ∈ hs, h.Writable) : parse (render hs) = hs := by
  have hd : dropClosing (dropOpening (render hs)) = inner hs := by
    show dropClosing (inner hs ++ [.char '}']) = inner hs
    simp [dropClosing]
  rw [parse, hd, filterMap_split_inner hw]

/-- **Whatever is read can be written.** -/
theorem writable_of_mem_parse {fragment : Text} {h : Header} (hh : h ∈ parse fragment) : h.Writable := by
  obtain ⟨part, hpart, hcut⟩ := List.mem_filterMap.1 hh
  have hand : .char '&' ∉ part := Text.not_mem_split hpart
  obtain ⟨rfl, hkey⟩ := Text.cut?_eq_some hcut
  rw [List.mem_append, List.mem_cons, not_or, not_or] at hand
  exact ⟨hkey, hand.1, hand.2.2⟩

theorem writable_of_mem_parseOption {fragment : Option Text} {h : Header} (hh : h ∈ parseOption fragment) : h.Writable := by
  cases fragment with
  | none => exact absurd hh List.not_mem_nil
  | some t => exact writable_of_mem_parse hh

/-- A fragment without its braces is read the same, if it does not begin or end with one of its own. -/
theorem parse_inner {hs : List Header} (hw : ∀ h ∈ hs, h.Writable) (hopen : (inner hs).head? ≠ some (.char '{'))
    (hclose : .char '}' ∉ inner hs) : parse (inner hs) = hs := by
  have h1 : dropOpening (inner hs) = inner hs := by
    unfold dropOpening
    split
    · next t ht => exact absurd (by simp [ht]) hopen
    · rfl
  have h2 : dropClosing (inner hs) = inner hs := by
    unfold dropClosing
    rw [if_neg fun h => hclose (List.mem_of_getLast? h)]
  rw [parse, h1, h2, filterMap_split_inner hw]

/-- A fragment holds a character other than its separators only if a key or a value does. -/
theorem not_mem_inner {hs : List Header} {c : CodePoint} (hand : c ≠ '&') (heq : c ≠ '=')
    (h : ∀ x ∈ hs, c ∉ x.1 ∧ c ∉ x.2) : c ∉ inner hs := by
  intro hc
  rcases Text.mem_join hc with hc | ⟨p, hp, hc⟩
  · exact hand (by simpa using hc)
  · obtain ⟨x, hx, rfl⟩ := List.mem_map.1 hp
    rcases mem_renderPart hc with hc | hc | hc
    · exact (h x hx).1 hc
    · exact heq hc
    · exact (h x hx).2 hc

theorem head?_inner {hs : List Header} (h : ∀ x ∈ hs.head?, x.1.head? ≠ some (.char '{')) :
    (inner hs).head? ≠ some (.char '{') := by
  rcases hs with _ | ⟨⟨k, v⟩, _ | ⟨y, hs⟩⟩
  · simp [inner, Text.join]
  all_goals
    have hk : k.head? ≠ some (.char '{') := h (k, v) (by simp)
    cases k with
    | nil => simp [inner, Text.join, renderPart]
    | cons c k => simpa [inner, Text.join, renderPart] using hk

/-! ## What is read of any fragment -/

/-- The core is the fragment without a `{` in front, if there is one, and then without a `}` at the end, if there is
one. -/
def Encloses (fragment core : Text) : Prop :=
  ∃ front back, fragment = front ++ core ++ back ∧
    (front = [.char '{'] ∨ front = [] ∧ fragment.head? ≠ some (.char '{')) ∧
    (back = [.char '}'] ∨ back = [] ∧ core.getLast? ≠ some (.char '}'))

/-- The headers of the parts that have a `=`, cut at the first one; the other parts are left out. -/
inductive Kept : List Text → List Header → Prop
  | nil : Kept [] []
  | header {key value : Text} {parts : List Text} {hs : List Header} (first : .char '=' ∉ key) (rest : Kept parts hs) :
      Kept ((key ++ .char '=' :: value) :: parts) ((key, value) :: hs)
  | dropped {part : Text} {parts : List Text} {hs : List Header} (plain : .char '=' ∉ part) (rest : Kept parts hs) :
      Kept (part :: parts) hs

/-- The headers are those of the parts between the `&`s, without at most one brace at each end. -/
def Reads (fragment : Text) (hs : List Header) : Prop :=
  ∃ parts, parts ≠ [] ∧ (∀ p ∈ parts, .char '&' ∉ p) ∧ Encloses fragment (Text.join ['&'] parts) ∧ Kept parts hs

variable {fragment core : Text} {parts : List Text} {hs : List Header}

theorem dropOpening_eq (t : Text) : ∃ front, t = front ++ dropOpening t ∧
    (front = [.char '{'] ∨ front = [] ∧ t.head? ≠ some (.char '{')) := by
  unfold dropOpening
  split
  · next t => exact ⟨['{'], rfl, .inl rfl⟩
  · next t hne =>
    refine ⟨[], rfl, .inr ⟨rfl, fun hhead => ?_⟩⟩
    obtain ⟨r, rfl⟩ := List.head?_eq_some_iff.1 hhead
    exact hne r rfl

theorem dropClosing_append (core : Text) {back : Text}
    (h : back = [.char '}'] ∨ back = [] ∧ core.getLast? ≠ some (.char '}')) : dropClosing (core ++ back) = core := by
  unfold dropClosing
  rcases h with rfl | ⟨rfl, hlast⟩
  · rw [if_pos (by simp), List.dropLast_concat]
  · rw [List.append_nil, if_neg hlast]

theorem dropClosing_eq (t : Text) : ∃ back, t = dropClosing t ++ back ∧
    (back = [.char '}'] ∨ back = [] ∧ (dropClosing t).getLast? ≠ some (.char '}')) := by
  unfold dropClosing
  split_ifs with hlast
  · obtain ⟨s, rfl⟩ := List.getLast?_eq_some_iff.1 hlast
    exact ⟨['}'], by rw [List.dropLast_concat], .inl rfl⟩
  · exact ⟨[], (List.append_nil t).symm, .inr ⟨rfl, hlast⟩⟩

/-- **At most one brace** is taken off at each end. -/
theorem encloses_iff : Encloses fragment core ↔ dropClosing (dropOpening fragment) = core := by
  constructor
  · rintro ⟨front, back, rfl, hfront, hback⟩
    have hopen : dropOpening (front ++ core ++ back) = core ++ back := by
      rcases hfront with rfl | ⟨rfl, hhead⟩
      · rfl
      · unfold dropOpening
        split
        · next t ht => exact absurd (by rw [ht]; rfl) hhead
        · rfl
    rw [hopen, dropClosing_append core hback]
  · rintro rfl
    obtain ⟨front, hfragment, hfront⟩ := dropOpening_eq fragment
    obtain ⟨back, hrest, hback⟩ := dropClosing_eq (dropOpening fragment)
    exact ⟨front, back, by rw [List.append_assoc, ← hrest, ← hfragment], hfront, hback⟩

/-- **Which parts are kept**, in order, and what of them. -/
theorem kept_iff : Kept parts hs ↔ parts.filterMap ofPart? = hs := by
  constructor
  · intro h
    induction h with
    | nil => rfl
    | @header key value parts hs first _ ih =>
      have hcut : ofPart? (key ++ .char '=' :: value) = some (key, value) := Text.cut?_append first
      rw [List.filterMap_cons_some hcut, ih]
    | @dropped part parts hs plain _ ih =>
      have hcut : ofPart? part = none := Text.cut?_eq_none plain
      rw [List.filterMap_cons_none hcut, ih]
  · rintro rfl
    induction parts with
    | nil => exact .nil
    | cons part parts ih =>
      cases hcut : ofPart? part with
      | some h =>
        obtain ⟨rfl, hkey⟩ := Text.cut?_eq_some hcut
        rw [List.filterMap_cons_some hcut]
        exact .header hkey ih
      | none =>
        rw [List.filterMap_cons_none hcut]
        refine .dropped (fun hmem => ?_) ih
        obtain ⟨key, value, rfl, hkey⟩ := List.eq_append_cons_of_mem hmem
        exact absurd (hcut.symm.trans (Text.cut?_append hkey)) (by simp)

theorem reads_iff : Reads fragment hs ↔ parse fragment = hs := by
  constructor
  · rintro ⟨parts, hne, hand, hcore, hkept⟩
    rw [parse, encloses_iff.1 hcore, Text.split_join hne hand, kept_iff.1 hkept]
  · rintro rfl
    refine ⟨_, Text.split_ne_nil '&' (dropClosing (dropOpening fragment)), fun p => Text.not_mem_split, ?_,
      kept_iff.2 rfl⟩
    rw [Text.join_split]
    exact encloses_iff.2 rfl

/-- **Header fragments say what was written.**  What is written of headers is read as these headers exactly if they can be
written; braces, empty texts and keys that come again do no harm.  Of any fragment, or of none, some headers are read: all
of them can be written, what is written of them is read as the same, and they are those of the parts between the `&`s that
have a `=`, in order, once at most one brace is taken off each end. -/
theorem fragments_round_trip :
    (∀ hs, parse (render hs) = hs ↔ ∀ h ∈ hs, h.Writable) ∧
      ∀ fragment : Option Text, (∀ h ∈ parseOption fragment, h.Writable) ∧
        parse (render (parseOption fragment)) = parseOption fragment ∧
        ∀ hs, parseOption fragment = hs ↔ Reads (fragment.getD []) hs := by
  refine ⟨fun hs => ⟨fun h => ?_, parse_render⟩, fun fragment => ?_⟩
  · rw [← h]
    exact fun x hx => writable_of_mem_parse hx
  · have hwritable : ∀ h ∈ parseOption fragment, h.Writable := fun h hh => writable_of_mem_parseOption hh
    refine ⟨hwritable, parse_render hwritable, fun hs => ?_⟩
    rw [reads_iff]
    cases fragment <;> rfl

example : parse (.of "\x7b\x7ba=1&b&=\x7d\x7d") = [(Text.of "\x7ba", Text.of "1"), ([], Text.of "\x7d")] := by decide

end RequestRules.Header
