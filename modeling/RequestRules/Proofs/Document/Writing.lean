import RequestRules.Proofs.Document
import RequestRules.Proofs.Document.Plain

/-!
# How documents are written

`Document.Writes` are the rules by which a document is written in one pass: plain values and containers by themselves, and
an object as what it stands for (`Document.stand?`), wherever it is found.  `Document.writes_iff`: that is the JSON of the
plain form.  `Document.written_plain` adds when nothing can be written, and what is read of what is written.
-/

namespace RequestRules

namespace Document

/-! ## What objects stand for -/

def ofOption : Option Text → Document
  | none => null
  | some t => text t

def ofRequest (r : Request) : Document := object [
  (.of "url", text r.url),
  (.of "http_method", ofOption r.method),
  (.of "headers", list (r.headers.map fun h => list [text h.1, text h.2])),
  (.of "refresh_interval", int r.interval),
  (.of "transformation", ofOption r.transformation),
  (.of "body", ofOption r.body)]

def ofEntry (e : Key × Request) : Document := object [
  (.of "key", text e.1.render),
  (.of "kind", text e.1.kindName),
  (.of "element", ofRequest e.2)]

def ofDescriptor (d : Descriptor) : Document := object [
  (.of "item", text d.item),
  (.of "accepted_data_types", list (d.states.map fun k => text k.name)),
  (.of "elements", list (d.entries.map ofEntry))]

/-- What an object is written as.  A color is written as the list of its parts, and any other value or mark and a moment
as their text. -/
def stand? : Document → Option Document
  | key (.command (.color h s b)) => some (list [int h, int s, int b])
  | key k => some (text k.render)
  | moment m => some (text m.render)
  | request r => some (ofRequest r)
  | descriptor d => some (ofDescriptor d)
  | null | bool _ | int _ | real _ | text _ | list _ | object _ | foreign => none

/-! ## Plain forms -/

theorem plain?_ofOption (t : Option Text) : plain? (ofOption t) = some (Json.ofOption t) := by
  cases t <;> rfl

theorem plainItems?_map {α : Type} {f : α → Document} {g : α → Json} {xs : List α}
    (h : ∀ x ∈ xs, plain? (f x) = some (g x)) : plainItems? (xs.map f) = some (xs.map g) := by
  rw [plainItems?_eq_some, List.map_map, List.map_map]
  exact List.map_congr_left h

theorem plain?_ofRequest (r : Request) : plain? (ofRequest r) = some r.plain := by
  have hheaders : plainItems? (r.headers.map fun h => list [text h.1, text h.2]) =
      some (r.headers.map fun h => Json.list [.text h.1, .text h.2]) := plainItems?_map fun _ _ => rfl
  simp [ofRequest, plain?, plainFields?, plain?_ofOption, hheaders, Request.plain, Header.plain]

theorem plain?_ofDescriptor (d : Descriptor) : plain? (ofDescriptor d) = some d.plain := by
  have hstates : plainItems? (d.states.map fun k => text k.name) = some (d.states.map fun k => Json.text k.name) :=
    plainItems?_map fun _ _ => rfl
  have hentries : plainItems? (d.entries.map ofEntry) = some (d.entries.map Descriptor.plainEntry) := by
    refine plainItems?_map fun e _ => ?_
    simp [ofEntry, plain?, plainFields?, plain?_ofRequest, Descriptor.plainEntry]
  simp [ofDescriptor, plain?, plainFields?, hstates, hentries, Descriptor.plain, ValueKind.plainList]

/-- What an object stands for has the plain form of the object. -/
theorem plain?_stand? {d e : Document} (h : stand? d = some e) : plain? e = plain? d := by
  unfold stand? at h
  split at h
  · cases h
    rfl
  · next k hcolor =>
    cases h
    cases k with
    | command v => cases v with
      | color h s b => exact absurd rfl (hcolor h s b)
      | _ => rfl
    | _ => rfl
  · cases h
    rfl
  · cases h
    exact plain?_ofRequest _
  · cases h
    exact plain?_ofDescriptor _
  all_goals cases h

/-- It stands for nothing else in turn. -/
theorem stand?_stand? {d e : Document} (h : stand? d = some e) : stand? e = none := by
  unfold stand? at h
  split at h <;> cases h <;> rfl

/-! ## Writing in one pass -/

/-- How a document is written, `depth` levels deep. -/
inductive Writes (indent : Option Text) (sort : Bool) : (depth : Nat) → Document → Text → Prop
  | null {depth : Nat} : Writes indent sort depth null (.of "null")
  | bool {depth : Nat} (b : Bool) : Writes indent sort depth (bool b) (if b then .of "true" else .of "false")
  | int {depth : Nat} {n : Int} (h : Numeral.isInLimit n = true) : Writes indent sort depth (int n) (Numeral.ofInt n)
  | real {depth : Nat} (x : Binary64) : Writes indent sort depth (real x) (Json.renderReal x)
  | text {depth : Nat} (t : Text) : Writes indent sort depth (text t) (Json.quote t)
  | list {depth : Nat} {xs : List Document} (w : Document → Text)
      (items : ∀ x ∈ xs, Writes indent sort (depth + 1) x (w x)) :
      Writes indent sort depth (list xs) (Json.enclosed indent depth '[' ']' (xs.map w))
  | object {depth : Nat} {fs : List (Text × Document)} (w : Document → Text)
      (values : ∀ f ∈ fs, Writes indent sort (depth + 1) f.2 (w f.2)) :
      Writes indent sort depth (object fs)
        (Json.enclosed indent depth '\x7b' '\x7d' ((Json.inOrder sort fs).map fun f => Json.field f.1 (w f.2)))
  | stand {depth : Nat} {d e : Document} {t : Text} (h : stand? d = some e) (written : Writes indent sort depth e t) :
      Writes indent sort depth d t

section Writes

variable {indent : Option Text} {sort : Bool} {depth : Nat}

theorem renderAt_items {xs : List Document} {js : List Json} {w : Document → Text} (hxs : plainItems? xs = some js)
    (hw : ∀ x ∈ xs, ∀ j, plain? x = some j → (j.arranged sort).renderAt indent (depth + 1) = w x) :
    ((Json.list js).arranged sort).renderAt indent depth = Json.enclosed indent depth '[' ']' (xs.map w) := by
  have hwritten : xs.map w = js.map fun j => (j.arranged sort).renderAt indent (depth + 1) := by
    calc xs.map w
        = xs.map fun x => (((plain? x).getD .null).arranged sort).renderAt indent (depth + 1) := by
          refine List.map_congr_left fun x hx => ?_
          obtain ⟨j, _, hj⟩ := exists_plain?_of_mem hxs hx
          rw [hj, Option.getD_some, hw x hx j hj]
      _ = (xs.map plain?).map fun o => ((o.getD .null).arranged sort).renderAt indent (depth + 1) := by
          rw [List.map_map]
          rfl
      _ = js.map fun j => (j.arranged sort).renderAt indent (depth + 1) := by
          rw [plainItems?_eq_some.1 hxs, List.map_map]
          rfl
  rw [Json.arranged_list, Json.renderAt_list, List.map_map, hwritten]
  rfl

theorem renderAt_fields {fs : List (Text × Document)} {gs : List (Text × Json)} {w : Document → Text}
    (hfs : plainFields? fs = some gs)
    (hw : ∀ f ∈ fs, ∀ j, plain? f.2 = some j → (j.arranged sort).renderAt indent (depth + 1) = w f.2) :
    ((Json.object gs).arranged sort).renderAt indent depth =
      Json.enclosed indent depth '\x7b' '\x7d' ((Json.inOrder sort fs).map fun f => Json.field f.1 (w f.2)) := by
  have hwritten : (fs.map fun f => (f.1, w f.2)) =
      gs.map fun g => (g.1, (g.2.arranged sort).renderAt indent (depth + 1)) := by
    calc (fs.map fun f => (f.1, w f.2))
        = fs.map fun f => (f.1, (((plain? f.2).getD .null).arranged sort).renderAt indent (depth + 1)) := by
          refine List.map_congr_left fun f hf => ?_
          obtain ⟨g, _, hg⟩ := exists_plain?_of_mem_fields hfs hf
          rw [hg, Option.getD_some, hw f hf g.2 hg]
      _ = (fs.map fun f => (f.1, plain? f.2)).map fun p =>
            (p.1, ((p.2.getD .null).arranged sort).renderAt indent (depth + 1)) := by
          rw [List.map_map]
          rfl
      _ = gs.map fun g => (g.1, (g.2.arranged sort).renderAt indent (depth + 1)) := by
          rw [plainFields?_eq_some.1 hfs, List.map_map]
          rfl
  -- the order depends on the names only, whatever stands for the values
  have horder : (Json.inOrder sort fs).map (fun f => (f.1, w f.2)) =
      (Json.inOrder sort (gs.map fun g => (g.1, g.2.arranged sort))).map
        fun g => (g.1, g.2.renderAt indent (depth + 1)) := by
    have hleft := Json.map_inOrder sort (fun f : Text × Document => w f.2) fs
    have hright := Json.map_inOrder sort (fun g : Text × Json => g.2.renderAt indent (depth + 1))
      (gs.map fun g => (g.1, g.2.arranged sort))
    rw [hleft, hright, hwritten, List.map_map]
    rfl
  have hfields := congrArg (List.map fun p : Text × Text => Json.field p.1 p.2) horder
  rw [List.map_map, List.map_map] at hfields
  rw [Json.arranged_object, Json.renderAt_object]
  exact congrArg _ hfields.symm

/-- What is written is the JSON of the plain form, and that has no long integers. -/
theorem Writes.exists_plain {d : Document} {t : Text} (h : Writes indent sort depth d t) :
    ∃ j, d.plain? = some j ∧ j.isShort = true ∧ (j.arranged sort).renderAt indent depth = t := by
  induction h with
  | null => exact ⟨.null, rfl, rfl, by cases sort <;> rfl⟩
  | bool b => exact ⟨.bool b, rfl, rfl, by cases sort <;> cases b <;> rfl⟩
  | @int depth n hshort => exact ⟨.int n, rfl, hshort, by cases sort <;> rfl⟩
  | real x => exact ⟨.real x, rfl, rfl, by cases sort <;> rfl⟩
  | text t => exact ⟨.text t, rfl, rfl, by cases sort <;> rfl⟩
  | @list depth xs w items ih =>
    obtain ⟨js, hjs⟩ := exists_plainItems? fun x hx => (ih x hx).imp fun _ => And.left
    refine ⟨.list js, by rw [plain?, hjs, Option.map_some], ?_, renderAt_items hjs fun x hx j hj => ?_⟩
    · rw [Json.isShort, Json.areShort_eq, List.all_eq_true]
      intro j hj
      obtain ⟨x, hx, hplain⟩ := exists_of_mem_plainItems? hjs hj
      obtain ⟨i, hi, hshort, _⟩ := ih x hx
      cases hi.symm.trans hplain
      exact hshort
    · obtain ⟨i, hi, _, hrender⟩ := ih x hx
      cases hi.symm.trans hj
      exact hrender
  | @object depth fs w values ih =>
    obtain ⟨gs, hgs⟩ := exists_plainFields? fun f hf => (ih f hf).imp fun _ => And.left
    refine ⟨.object gs, by rw [plain?, hgs, Option.map_some], ?_, renderAt_fields hgs fun f hf j hj => ?_⟩
    · rw [Json.isShort, Json.fieldsAreShort_eq, List.all_eq_true]
      intro g hg
      obtain ⟨f, hf, _, hplain⟩ := exists_of_mem_plainFields? hgs hg
      obtain ⟨i, hi, hshort, _⟩ := ih f hf
      cases hi.symm.trans hplain
      exact hshort
    · obtain ⟨i, hi, _, hrender⟩ := ih f hf
      cases hi.symm.trans hj
      exact hrender
  | stand hstand _ ih =>
    obtain ⟨j, hj, hrest⟩ := ih
    exact ⟨j, (plain?_stand? hstand).symm.trans hj, hrest⟩

theorem writes_of_stand {j : Json} (h : ∀ d, stand? d = none → plain? d = some j → ∀ depth,
    Writes indent sort depth d ((j.arranged sort).renderAt indent depth)) {d : Document} (hd : plain? d = some j)
    (depth : Nat) : Writes indent sort depth d ((j.arranged sort).renderAt indent depth) := by
  cases hstand : stand? d with
  | none => exact h d hstand hd depth
  | some e => exact .stand hstand (h e (stand?_stand? hstand) ((plain?_stand? hstand).trans hd) depth)

/-- A document that is no object, and its plain form. -/
inductive Shape : Document → Json → Prop
  | null : Shape null .null
  | bool (b : Bool) : Shape (bool b) (.bool b)
  | int (n : Int) : Shape (int n) (.int n)
  | real (x : Binary64) : Shape (real x) (.real x)
  | text (t : Text) : Shape (text t) (.text t)
  | list {xs : List Document} {js : List Json} (h : plainItems? xs = some js) : Shape (list xs) (.list js)
  | object {fs : List (Text × Document)} {gs : List (Text × Json)} (h : plainFields? fs = some gs) :
      Shape (object fs) (.object gs)

theorem shape_of_plain? {d : Document} {j : Json} (hstand : stand? d = none) (h : plain? d = some j) : Shape d j := by
  cases d with
  | null => cases h; exact .null
  | bool b => cases h; exact .bool b
  | int n => cases h; exact .int n
  | real x => cases h; exact .real x
  | text t => cases h; exact .text t
  | list xs =>
    obtain ⟨js, hjs, rfl⟩ := Option.map_eq_some_iff.1 h
    exact .list hjs
  | object fs =>
    obtain ⟨gs, hgs, rfl⟩ := Option.map_eq_some_iff.1 h
    exact .object hgs
  | key k =>
    cases k with
    | command v => cases v <;> cases hstand
    | _ => cases hstand
  | moment m => cases hstand
  | request r => cases hstand
  | descriptor d => cases hstand
  | foreign => cases h

/-- A document that is no object is written by the rule for its shape. -/
theorem writes_of_plain (j : Json) (hshort : j.isShort = true) : ∀ d, stand? d = none → plain? d = some j → ∀ depth,
    Writes indent sort depth d ((j.arranged sort).renderAt indent depth) := by
  induction j using Json.ind with
  | null =>
    intro d hstand h depth
    cases shape_of_plain? hstand h
    cases sort <;> exact .null
  | bool b =>
    intro d hstand h depth
    cases shape_of_plain? hstand h
    cases sort <;> cases b <;> exact .bool _
  | int n =>
    intro d hstand h depth
    cases shape_of_plain? hstand h
    cases sort <;> exact .int hshort
  | real x =>
    intro d hstand h depth
    cases shape_of_plain? hstand h
    cases sort <;> exact .real x
  | text t =>
    intro d hstand h depth
    cases shape_of_plain? hstand h
    cases sort <;> exact .text t
  | list js ih =>
    intro d hstand h depth
    rw [Json.isShort, Json.areShort_eq] at hshort
    have hitems := List.all_eq_true.1 hshort
    cases shape_of_plain? hstand h with
    | @list xs _ hxs =>
      rw [renderAt_items hxs (w := fun x => (((plain? x).getD .null).arranged sort).renderAt indent (depth + 1))
        fun x _ j hj => by rw [hj, Option.getD_some]]
      refine .list _ fun x hx => ?_
      obtain ⟨j, hj, hplain⟩ := exists_plain?_of_mem hxs hx
      rw [hplain, Option.getD_some]
      exact writes_of_stand (ih j hj (hitems j hj)) hplain (depth + 1)
  | object gs ih =>
    intro d hstand h depth
    rw [Json.isShort, Json.fieldsAreShort_eq] at hshort
    have hvalues := List.all_eq_true.1 hshort
    cases shape_of_plain? hstand h with
    | @object fs _ hfs =>
      rw [renderAt_fields hfs (w := fun x => (((plain? x).getD .null).arranged sort).renderAt indent (depth + 1))
        fun f _ j hj => by rw [hj, Option.getD_some]]
      refine .object (fun x => (((plain? x).getD .null).arranged sort).renderAt indent (depth + 1)) fun f hf => ?_
      obtain ⟨g, hg, hplain⟩ := exists_plain?_of_mem_fields hfs hf
      rw [hplain, Option.getD_some]
      exact writes_of_stand (ih g hg (hvalues g hg)) hplain (depth + 1)

/-- **A document is written as the JSON of its plain form**, whichever of the two comes first: putting the objects in it
into plain form, or writing. -/
theorem writes_iff {d : Document} {t : Text} : Writes indent sort 0 d t ↔ d.render indent sort = .ok t := by
  rw [render_eq_ok]
  constructor
  · intro h
    exact h.exists_plain
  · rintro ⟨j, hj, hshort, rfl⟩
    exact writes_of_stand (writes_of_plain j hshort) hj 0

end Writes

/-! ## What is read again -/

/-- Nothing in the document is foreign or a number with a fraction, and no object names a field twice. -/
inductive Exact : Document → Prop
  | null : Exact null
  | bool (b : Bool) : Exact (bool b)
  | int (n : Int) : Exact (int n)
  | text (t : Text) : Exact (text t)
  | list {xs : List Document} (items : ∀ x ∈ xs, Exact x) : Exact (list xs)
  | object {fs : List (Text × Document)} (names : (fs.map (·.1)).Nodup) (values : ∀ f ∈ fs, Exact f.2) : Exact (object fs)
  | key (k : Key) : Exact (key k)
  | moment (m : Moment) : Exact (moment m)
  | request (r : Request) : Exact (request r)
  | descriptor (d : Descriptor) : Exact (descriptor d)

theorem exact_key (k : Key) : k.plain.Exact := by
  cases k with
  | command v =>
    cases v with
    | color h s b =>
      refine .list fun j hj => ?_
      simp only [List.mem_cons, List.not_mem_nil, or_false] at hj
      rcases hj with rfl | rfl | rfl <;> exact .int _
    | _ => exact .text _
  | _ => exact .text _

theorem Exact.exists_plain {d : Document} (h : Exact d) : ∃ j, plain? d = some j ∧ j.Exact := by
  induction h with
  | null => exact ⟨_, rfl, .null⟩
  | bool b => exact ⟨_, rfl, .bool b⟩
  | int n => exact ⟨_, rfl, .int n⟩
  | text t => exact ⟨_, rfl, .text t⟩
  | @list xs items ih =>
    obtain ⟨js, hjs⟩ := exists_plainItems? fun x hx => (ih x hx).imp fun _ => And.left
    refine ⟨.list js, by rw [plain?, hjs, Option.map_some], .list fun j hj => ?_⟩
    obtain ⟨x, hx, hplain⟩ := exists_of_mem_plainItems? hjs hj
    obtain ⟨i, hi, hexact⟩ := ih x hx
    cases hi.symm.trans hplain
    exact hexact
  | @object fs names values ih =>
    obtain ⟨gs, hgs⟩ := exists_plainFields? fun f hf => (ih f hf).imp fun _ => And.left
    have hmap := plainFields?_eq_some.1 hgs
    have hnames : fs.map (·.1) = gs.map (·.1) := by
      have hfst := congrArg (List.map Prod.fst) hmap
      rw [List.map_map, List.map_map] at hfst
      exact hfst
    refine ⟨.object gs, by rw [plain?, hgs, Option.map_some], .object (hnames ▸ names) fun g hg => ?_⟩
    obtain ⟨f, hf, _, hplain⟩ := exists_of_mem_plainFields? hgs hg
    obtain ⟨i, hi, hexact⟩ := ih f hf
    cases hi.symm.trans hplain
    exact hexact
  | key k => exact ⟨_, rfl, exact_key k⟩
  | moment m => exact ⟨_, rfl, .text _⟩
  | request r => exact ⟨_, rfl, Descriptor.exact_request r⟩
  | descriptor d => exact ⟨_, rfl, Descriptor.exact_plain d⟩

/-- **Documents are written like their plain forms.**  With any indent, and with the fields in order or as they are:
* what is written in one pass, each object as what it stands for, is the JSON of the plain form of the document; and an
  object has the plain form of what it stands for;
* a document without long integers cannot be written exactly if there is a foreign object somewhere, and that is the fault;
* a document that is exact and has no long integers has a plain form, and what is written of it is the JSON of that form,
  with its fields in order if they are to be.  It is ASCII if the indent is; and if the indent is blank, it is read as that
  form with its pairs of surrogates joined, which without such pairs is the plain form but for the order of fields. -/
theorem written_plain (indent : Option Text) (sort : Bool) (d : Document) :
    (∀ t, d.render indent sort = .ok t ↔ Writes indent sort 0 d t) ∧
      (∀ e, d.stand? = some e → d.plain? = e.plain?) ∧
      (d.isShort = true → ∀ e, d.render indent sort = .error e ↔ e = .foreign ∧ d.HasForeign) ∧
      (d.Exact → d.isShort = true → ∃ j t, d.plain? = some j ∧ d.render indent sort = .ok t ∧
        t = (j.arranged sort).render indent ∧ (Json.IsAsciiIndent indent → Json.IsAscii t) ∧
        (Json.IsBlank indent → Json.read? t = some (j.arranged sort).joined ∧
          (j.Unpaired → (j.arranged sort).joined.Same j ∧ (sort = false → (j.arranged sort).joined = j)))) := by
  refine ⟨fun t => writes_iff.symm, fun e he => (plain?_stand? he).symm, fun hshort e => ?_, fun hexact hshort => ?_⟩
  · constructor
    · intro h
      have hhas := has_of_render h
      cases e with
      | foreign => exact ⟨rfl, plain?_eq_none_iff.1 hhas⟩
      | longInt => exact absurd (hshort.symm.trans hhas) nofun
    · rintro ⟨rfl, hforeign⟩
      exact render_of_hasForeign hforeign hshort
  · obtain ⟨j, hj, hplain⟩ := hexact.exists_plain
    have harranged := hplain.arranged sort
    refine ⟨j, (j.arranged sort).render indent, hj, render_eq_ok.2 ⟨j, hj, isShort_of_plain? hj ▸ hshort, rfl⟩, rfl,
      fun hascii => Json.ascii_renderAt harranged hascii 0, fun hblank => ⟨Json.read?_render harranged hblank,
      fun hpairs => ?_⟩⟩
    rw [harranged.joined_eq (hpairs.arranged sort)]
    refine ⟨hplain.same_arranged sort, ?_⟩
    rintro rfl
    rfl

/-- A color beside a request, under names that are put in order. -/
theorem written_plain_color :
    let d := object [
      (.of "ü", list [key (.command (.color 1 2 3)), text (.of "\"😀"), list []]),
      (.of "rule", request { url := .of "http://x/s", headers := [(.of "a", .of "1")], interval := 60 })]
    d.Exact ∧ d.isShort = true ∧ ∃ j t, d.plain? = some j ∧ d.render none true = .ok t ∧
      t = (j.arranged true).render none ∧ Json.IsAscii t ∧ Json.read? t = some (j.arranged true) ∧
      (j.arranged true).Same j := by
  intro d
  have hexact : d.Exact := by
    refine .object (by decide) fun f hf => ?_
    simp only [List.mem_cons, List.not_mem_nil, or_false] at hf
    rcases hf with rfl | rfl
    · refine .list fun x hx => ?_
      simp only [List.mem_cons, List.not_mem_nil, or_false] at hx
      rcases hx with rfl | rfl | rfl
      · exact .key _
      · exact .text _
      · exact .list fun x hx => absurd hx List.not_mem_nil
    · exact .request _
  have hshort : d.isShort = true := by decide +kernel
  obtain ⟨j, t, hj, hrender, ht, hascii, hread⟩ := (written_plain none true d).2.2.2 hexact hshort
  have hpairs : j.Unpaired := by
    have hplain : d.plain?.all (fun j => decide j.Unpaired) = true := by decide +kernel
    rw [hj] at hplain
    exact of_decide_eq_true hplain
  obtain ⟨hback, hsame⟩ := hread Json.isBlank_none
  obtain ⟨i, hi, hjexact⟩ := hexact.exists_plain
  cases hi.symm.trans hj
  rw [(hjexact.arranged true).joined_eq (hpairs.arranged true)] at hback hsame
  exact ⟨hexact, hshort, j, t, hj, hrender, ht, hascii nofun, hback, (hsame hpairs).1⟩

/-- A pair of surrogates is read as the character that they stand for; and an indent that is not blank is not read at all,
and is written even if it is not ASCII. -/
theorem not_written_plain_of_pair :
    let d := text [.surrogate 0x3d, .surrogate 0x600]
    let e := list [null]
    d.Exact ∧ d.isShort = true ∧ d.plain? = some (.text [.surrogate 0x3d, .surrogate 0x600]) ∧
      (∃ t, d.render none false = .ok t ∧ Json.read? t = some (.text (.of "😀"))) ∧
      e.Exact ∧ e.isShort = true ∧ ∃ t, e.render (some (.of "ü")) false = .ok t ∧ ¬ Json.IsAscii t ∧ Json.read? t = none := by
  intro d e
  have hread : Json.read? ((Json.text [.surrogate 0x3d, .surrogate 0x600]).render none) = some (.text (.of "😀")) :=
    (Json.read?_render (.text _) Json.isBlank_none).trans (congrArg (some ∘ Json.text) (by decide +kernel))
  refine ⟨.text _, rfl, rfl, ⟨_, rfl, hread⟩, .list fun x hx => ?_, rfl, _, rfl, by decide +kernel, by decide +kernel⟩
  obtain rfl := List.mem_singleton.1 hx
  exact .null

end Document

end RequestRules
