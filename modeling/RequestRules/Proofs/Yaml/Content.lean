import RequestRules.Yaml.Content

/-!
# Contents that are alike

The content of a document depends on other files only through what is loaded from them, and on its own path only through
the paths in it.  `Content.alike_ofGraph` says so for any notion of results that are alike (`Likeness`): if two ways to load
files have results that are alike, so have the contents of a document with the one and with the other.

Making goes by the nodes and by the kinds of the parts (`Part.Kind`), never by what a setting holds beyond that.  So each
step of the making keeps two works alike, and a whole making does by the same recursion as the making itself.
-/

namespace RequestRules.Yaml

/-! ## Kinds of parts -/

/-- What other parts depend on in a part. -/
inductive Part.Kind
  | whole (isKey : Bool)
  | list
  | pairs
  | set
  | map
  deriving DecidableEq, Repr

def Part.kind : Part → Kind
  | whole s => .whole s.isKey
  | list _ => .list
  | pairs _ => .pairs
  | set _ => .set
  | map _ => .map

theorem Part.any_isKey (p : Option Part) : p.any isKey = (p.map kind).any (· = .whole true) := by
  cases p with
  | none => rfl
  | some p =>
    cases p with
    | whole s =>
      show s.isKey = decide (Kind.whole s.isKey = .whole true)
      cases s.isKey <;> rfl
    | _ => rfl

namespace Parts

def kinds (ps : Parts) : Array (Option Part.Kind) := ps.map (Option.map Part.kind)

theorem kind_part? (ps : Parts) (i : Nat) : (ps.part? i).map Part.kind = ps.kinds.getD i none := by
  unfold part? kinds
  rw [Array.getD_eq_getD_getElem?, Array.getD_eq_getD_getElem?, Array.getElem?_map]
  cases ps[i]? <;> rfl

theorem kinds_setIfInBounds (ps : Parts) (i : Nat) (p : Part) :
    kinds (ps.setIfInBounds i (some p)) = ps.kinds.setIfInBounds i (some p.kind) := by
  unfold kinds
  rw [Array.map_setIfInBounds]
  rfl

/-- Whether a part becomes a setting that can be a key goes by its kind. -/
theorem isKey_setting (ps : Parts) (i : Nat) :
    (ps.setting i).isKey = match ps.kinds.getD i none with
      | some (.whole isKey) => isKey
      | _ => false := by
  rw [← kind_part?]
  unfold setting unfold
  rw [if_neg (by simp)]
  cases ps.part? i with
  | none => rfl
  | some p => cases p <;> rfl

end Parts

/-! ## Likeness -/

/-- What has to agree in two results that are alike. -/
structure Likeness where
  /-- settings have to be equal; if not, it is enough that both or neither of them can be keys -/
  exact : Prop
  /-- a result with this fault is like any other -/
  Lost : Fault → Prop
  Faults : Fault → Fault → Prop
  lost_or_faults : ∀ f, Lost f ∨ Faults f f

namespace Likeness

inductive Alike (l : Likeness) {α β : Type} (R : α → β → Prop) : Except Fault α → Except Fault β → Prop
  | lost {f : Fault} {y : Except Fault β} (h : l.Lost f) : Alike l R (.error f) y
  | faults {f g : Fault} (h : l.Faults f g) : Alike l R (.error f) (.error g)
  | ok {a : α} {b : β} (h : R a b) : Alike l R (.ok a) (.ok b)

structure AlikeSettings (l : Likeness) (v w : Setting) : Prop where
  isKey : v.isKey = w.isKey
  eq : l.exact → v = w

structure AlikeParts (l : Likeness) (ps qs : Parts) : Prop where
  kinds : ps.kinds = qs.kinds
  eq : l.exact → ps = qs

structure AlikeWork (l : Likeness) (w v : Content.Work) : Prop where
  nodes : w.nodes = v.nodes
  bound : w.bound = v.bound
  met : w.met = v.met
  parts : l.AlikeParts w.parts v.parts

/-- From works that are alike, two makings have results that are alike, and leave works that are. -/
def AlikeMaking (l : Likeness) {α β : Type} (R : α → β → Prop) (m : Content.Making α) (m' : Content.Making β) : Prop :=
  ∀ w v, l.AlikeWork w v → l.Alike (fun x y => R x.1 y.1 ∧ l.AlikeWork x.2 y.2) (m.run w) (m'.run v)

variable {l : Likeness} {α β γ δ : Type} {R : α → β → Prop} {S : γ → δ → Prop}

theorem Alike.error (f : Fault) : l.Alike R (.error f) (.error f) := by
  cases l.lost_or_faults f with
  | inl h => exact .lost h
  | inr h => exact .faults h

theorem Alike.refl {R : α → α → Prop} (h : ∀ a, R a a) (x : Except Fault α) : l.Alike R x x := by
  cases x with
  | error f => exact .error f
  | ok a => exact .ok (h a)

theorem Alike.bind {x : Except Fault α} {y : Except Fault β} {f : α → Except Fault γ} {g : β → Except Fault δ}
    (hx : l.Alike R x y) (hf : ∀ a b, R a b → l.Alike S (f a) (g b)) : l.Alike S (x.bind f) (y.bind g) := by
  cases hx with
  | lost h => exact .lost h
  | faults h => exact .faults h
  | ok h => exact hf _ _ h

theorem Alike.bind_same (x : Except Fault α) {f : α → Except Fault γ} {g : α → Except Fault δ}
    (h : ∀ a, l.Alike S (f a) (g a)) : l.Alike S (x.bind f) (x.bind g) := by
  refine (Alike.refl (R := (· = ·)) (fun _ => rfl) x).bind ?_
  rintro a _ rfl
  exact h a

theorem AlikeSettings.refl (v : Setting) : l.AlikeSettings v v := ⟨rfl, fun _ => rfl⟩

/-! ### Makings -/

namespace AlikeMaking

theorem pure {a : α} {b : β} (h : R a b) : l.AlikeMaking R (Pure.pure a) (Pure.pure b) :=
  fun _ _ hw => .ok ⟨h, hw⟩

theorem bind {m : Content.Making α} {m' : Content.Making β} {f : α → Content.Making γ} {f' : β → Content.Making δ}
    (hm : l.AlikeMaking R m m') (hf : ∀ a b, R a b → l.AlikeMaking S (f a) (f' b)) :
    l.AlikeMaking S (m >>= f) (m' >>= f') := by
  intro w v hw
  rw [StateT.run_bind, StateT.run_bind]
  exact (hm w v hw).bind fun x y hxy => hf x.1 y.1 hxy.1 x.2 y.2 hxy.2

theorem throw (f : Fault) : l.AlikeMaking R (MonadExcept.throw f) (MonadExcept.throw f) :=
  fun _ _ _ => .error f

theorem lift {x : Except Fault α} {y : Except Fault β} (h : l.Alike R x y) :
    l.AlikeMaking R (liftM x) (liftM y) := by
  intro w v hw
  exact h.bind fun a b hab => .ok ⟨hab, hw⟩

theorem get : l.AlikeMaking l.AlikeWork MonadState.get MonadState.get := fun _ _ hw => .ok ⟨hw, hw⟩

theorem update {f g : Content.Work → Content.Work} (h : ∀ w v, l.AlikeWork w v → l.AlikeWork (f w) (g v)) :
    l.AlikeMaking (· = ·) (modify f : Content.Making Unit) (modify g) :=
  fun w v hw => .ok ⟨rfl, h w v hw⟩

theorem forM {f g : γ → Content.Making Unit} (xs : List γ) (h : ∀ a, l.AlikeMaking (· = ·) (f a) (g a)) :
    l.AlikeMaking (· = ·) (xs.forM f) (xs.forM g) := by
  induction xs with
  | nil => exact .pure rfl
  | cons a xs ih => exact (h a).bind fun _ _ _ => ih

theorem mapM {f g : γ → Content.Making δ} (xs : List γ) (h : ∀ a, l.AlikeMaking (· = ·) (f a) (g a)) :
    l.AlikeMaking (· = ·) (xs.mapM f) (xs.mapM g) := by
  induction xs with
  | nil => exact .pure rfl
  | cons a xs ih =>
    rw [List.mapM_cons, List.mapM_cons]
    refine (h a).bind fun b c hbc => ih.bind fun bs cs hbcs => .pure ?_
    rw [hbc, hbcs]

theorem foldlM {f g : δ → γ → Content.Making δ} (xs : List γ) (d : δ)
    (h : ∀ d a, l.AlikeMaking (· = ·) (f d a) (g d a)) : l.AlikeMaking (· = ·) (xs.foldlM f d) (xs.foldlM g d) := by
  induction xs generalizing d with
  | nil => exact .pure rfl
  | cons a xs ih =>
    rw [List.foldlM_cons, List.foldlM_cons]
    refine (h d a).bind fun b c hbc => ?_
    rw [hbc]
    exact ih c

end AlikeMaking

end Likeness

/-! ## The steps of a making -/

namespace Content

open Likeness

variable {l : Likeness}

theorem alike_nodeAt (i : Nat) : l.AlikeMaking (· = ·) (nodeAt i) (nodeAt i) := by
  refine AlikeMaking.get.bind fun w v hw => .pure ?_
  rw [hw.nodes]

theorem alike_partAt? (i : Nat) :
    l.AlikeMaking (fun p q => p.map Part.kind = q.map Part.kind) (partAt? i) (partAt? i) := by
  refine AlikeMaking.get.bind fun w v hw => .pure ?_
  rw [Parts.kind_part?, Parts.kind_part?, hw.parts.kinds]

theorem alike_setNode (i : Nat) (n : Node) : l.AlikeMaking (· = ·) (setNode i n) (setNode i n) := by
  refine .update fun w v hw => ⟨?_, hw.bound, hw.met, hw.parts⟩
  exact congrArg (·.setIfInBounds i n) hw.nodes

theorem alike_setPart {p q : Part} (hkind : p.kind = q.kind) (heq : l.exact → p = q) (i : Nat) :
    l.AlikeMaking (· = ·) (setPart i p) (setPart i q) := by
  refine .update fun w v hw => ⟨hw.nodes, hw.bound, hw.met, ?_, fun hexact => ?_⟩
  · rw [Parts.kinds_setIfInBounds, Parts.kinds_setIfInBounds, hw.parts.kinds, hkind]
  · show w.parts.setIfInBounds i (some p) = v.parts.setIfInBounds i (some q)
    rw [hw.parts.eq hexact, heq hexact]

theorem alike_meet (i : Nat) :
    l.AlikeMaking (· = ·) (modify fun w => { w with met := w.met.push i } : Making Unit)
      (modify fun w => { w with met := w.met.push i }) := by
  refine .update fun w v hw => ⟨hw.nodes, hw.bound, ?_, hw.parts⟩
  exact congrArg (·.push i) hw.met

theorem alike_entriesAt (i : Nat) : l.AlikeMaking (· = ·) (entriesAt i) (entriesAt i) := by
  refine (alike_nodeAt i).bind fun n n' hn => ?_
  subst hn
  cases n.entries? with
  | none => exact .throw _
  | some es => exact .pure rfl

theorem alike_plainKey (k : Nat) : l.AlikeMaking (· = ·) (plainKey k) (plainKey k) := by
  refine (alike_nodeAt k).bind fun n n' hn => ?_
  subst hn
  split
  · exact alike_setNode k _
  · exact .pure rfl

/-- Nothing is made in the flattening of a map, so the two ways to load do not matter. -/
theorem alike_flatten (fuel : Nat) (brought : List (Nat × Nat)) (i : Nat) :
    l.AlikeMaking (· = ·) (flatten fuel brought i) (flatten fuel brought i) := by
  induction fuel generalizing brought i with
  | zero => exact .throw _
  | succ fuel ih =>
    unfold flatten
    refine (alike_entriesAt i).bind fun es es' hes => AlikeMaking.get.bind fun w v hw => ?_
    subst hes
    rw [hw.nodes]
    cases v.nodes.cutAt? Tag.merge es with
    | none =>
      refine (AlikeMaking.forM es fun e => alike_plainKey e.1).bind fun _ _ _ => ?_
      refine (alike_nodeAt i).bind fun n n' hn => ?_
      subst hn
      exact (alike_setNode i _).bind fun _ _ _ => .pure rfl
    | some cut =>
      obtain ⟨front, value, back⟩ := cut
      refine (alike_nodeAt i).bind fun n n' hn => ?_
      subst hn
      refine (alike_setNode i _).bind fun _ _ _ => (alike_nodeAt value).bind fun n n' hn => ?_
      subst hn
      have hrest : ∀ found found', found = found' →
          l.AlikeMaking (· = ·) (flatten fuel (brought ++ found) i) (flatten fuel (brought ++ found') i) := by
        rintro found _ rfl
        exact ih _ i
      cases n.shape with
      | scalar t => exact (AlikeMaking.throw _).bind hrest
      | mapping es => exact (ih [] value).bind hrest
      | sequence ns =>
        refine (AlikeMaking.foldlM ns [] fun found n => ?_).bind hrest
        refine (ih [] n).bind fun more more' hmore => .pure ?_
        rw [hmore]

section Loads

variable {s : Surroundings} {file file' : Text} {load load' : Text → Except Fault Setting}

/-- Two documents refer to the same files in their own ways. -/
structure AlikeLoads (l : Likeness) (s : Surroundings) (file file' : Text)
    (load load' : Text → Except Fault Setting) : Prop where
  same : l.exact → file = file'
  results : ∀ p, l.Alike l.AlikeSettings (load (Path.resolve s.home s.configFolder file p))
    (load' (Path.resolve s.home s.configFolder file' p))

variable (h : AlikeLoads l s file file' load load')
include h

theorem alike_single (g : Nodes) (n : Node) :
    l.Alike l.AlikeSettings (single s file load g n) (single s file' load' g n) := by
  unfold single readPath
  split
  · cases n.text? with
    | none => exact .error _
    | some t =>
      cases hhome : homeFault? t with
      | none =>
        simp only [hhome]
        exact h.results t
      | some f => simpa only [hhome] using .error _
  split
  · cases n.text? with
    | none => exact .error _
    | some t =>
      cases hhome : homeFault? t with
      | none => simpa only [hhome] using .ok ⟨rfl, fun hexact => by rw [h.same hexact]⟩
      | some f => simpa only [hhome] using .error _
  cases reader? s n with
  | none => exact .error _
  | some read => exact .refl .refl _

theorem alike_make (i : Nat) : l.AlikeMaking (· = ·) (make s file load i) (make s file' load' i) := by
  refine (alike_partAt? i).bind fun p q hpq => ?_
  have hnone : p.isNone = q.isNone := by
    rw [← Option.isNone_map (f := Part.kind), hpq, Option.isNone_map]
  rw [hnone]
  split
  · refine (alike_nodeAt i).bind fun n n' hn => ?_
    subst hn
    cases Part.empty? n.tag with
    | some p => exact (alike_setPart rfl (fun _ => rfl) i).bind fun _ _ _ => alike_meet i
    | none =>
      refine AlikeMaking.get.bind fun w v hw => ?_
      rw [hw.nodes]
      refine (AlikeMaking.lift (alike_single h v.nodes n)).bind fun x y hxy => ?_
      refine alike_setPart ?_ (fun hexact => ?_) i
      · exact congrArg Part.Kind.whole hxy.isKey
      · rw [hxy.eq hexact]
  · exact .pure rfl

theorem alike_makePair (i : Nat) : l.AlikeMaking (· = ·) (makePair s file load i) (makePair s file' load' i) := by
  refine (alike_entriesAt i).bind fun es es' hes => ?_
  subst hes
  split
  · exact (alike_make h _).bind fun _ _ _ => (alike_make h _).bind fun _ _ _ => .pure rfl
  · exact .throw _

theorem alike_makeEntries (i : Nat) :
    l.AlikeMaking (fun es es' => l.exact → es = es') (makeEntries s file load i) (makeEntries s file' load' i) := by
  refine AlikeMaking.get.bind fun w v hw => ?_
  rw [hw.bound]
  refine (alike_flatten v.bound [] i).bind fun es es' hes => ?_
  subst hes
  refine AlikeMaking.bind (R := (· = ·)) (.forM es fun e => ?_) fun _ _ _ => ?_
  · refine (alike_make h e.1).bind fun _ _ _ => (alike_partAt? e.1).bind fun p q hpq => ?_
    have hkey : p.any Part.isKey = q.any Part.isKey := by rw [Part.any_isKey, hpq, ← Part.any_isKey]
    dsimp only
    rw [hkey]
    split
    · exact (AlikeMaking.throw _).bind (R := (· = ·)) fun _ _ _ => alike_make h e.2
    · exact alike_make h e.2
  · refine AlikeMaking.get.bind fun w v hw => .pure fun hexact => ?_
    rw [hw.parts.eq hexact]

theorem alike_fill (i : Nat) : l.AlikeMaking (· = ·) (fill s file load i) (fill s file' load' i) := by
  refine (alike_nodeAt i).bind fun n n' hn => (alike_partAt? i).bind fun p q hpq => ?_
  subst hn
  cases p with
  | none =>
    obtain rfl := Option.map_eq_none_iff.1 hpq.symm
    exact .throw _
  | some p =>
    obtain ⟨q, rfl, hkind⟩ := Option.map_eq_some_iff.1 hpq.symm
    cases p with
    | whole v =>
      cases q with
      | whole w => exact .throw _
      | _ => cases hkind
    | list items =>
      cases q with
      | list items' =>
        cases n.shape with
        | sequence ns =>
          exact (AlikeMaking.forM ns (alike_make h)).bind fun _ _ _ => alike_setPart rfl (fun _ => rfl) i
        | _ => exact .throw _
      | _ => cases hkind
    | pairs entries =>
      cases q with
      | pairs entries' =>
        cases n.shape with
        | sequence ns =>
          refine (AlikeMaking.mapM ns (alike_makePair h)).bind fun es es' hes => ?_
          exact alike_setPart (p := .pairs es) (q := .pairs es') rfl (fun _ => congrArg Part.pairs hes) i
        | _ => exact .throw _
      | _ => cases hkind
    | set entries =>
      cases q with
      | set entries' =>
        cases n.shape with
        | mapping es =>
          refine (alike_makeEntries h i).bind fun es es' hes => ?_
          exact alike_setPart (p := .set es) (q := .set es') rfl (fun hexact => congrArg Part.set (hes hexact)) i
        | _ => exact .throw _
      | _ => cases hkind
    | map entries =>
      cases q with
      | map entries' =>
        cases n.shape with
        | mapping es =>
          refine (alike_makeEntries h i).bind fun es es' hes => ?_
          exact alike_setPart (p := .map es) (q := .map es') rfl (fun hexact => congrArg Part.map (hes hexact)) i
        | _ => exact .throw _
      | _ => cases hkind

theorem alike_fillFrom (fuel k : Nat) :
    l.AlikeMaking (· = ·) (fillFrom s file load fuel k) (fillFrom s file' load' fuel k) := by
  induction fuel generalizing k with
  | zero => exact .pure rfl
  | succ fuel ih =>
    unfold fillFrom
    refine AlikeMaking.get.bind fun w v hw => ?_
    rw [hw.met]
    cases v.met[k]? with
    | none => exact .pure rfl
    | some i => exact (alike_fill h i).bind fun _ _ _ => ih (k + 1)

/-- **Contents are alike if what is loaded is.** -/
theorem alike_ofGraph (g : Graph) :
    l.Alike l.AlikeSettings (ofGraph s file load g) (ofGraph s file' load' g) := by
  unfold ofGraph
  have hmaking := (alike_make h g.root).bind fun _ _ _ => alike_fillFrom h g.nodes.size 0
  refine (hmaking _ _ ⟨rfl, rfl, rfl, rfl, fun _ => rfl⟩).bind fun x y hxy => .ok ⟨?_, fun hexact => ?_⟩
  · rw [Parts.isKey_setting, Parts.isKey_setting, hxy.2.parts.kinds]
  · rw [hxy.2.parts.eq hexact]

end Loads

/-! ## Documents without collections -/

theorem run_make {s : Surroundings} {file : Text} {load : Text → Except Fault Setting} {w : Work} {i : Nat}
    (hnew : w.parts.part? i = none) (hsingle : Part.empty? (w.nodes.node i).tag = none) :
    (make s file load i).run w = (single s file load w.nodes (w.nodes.node i)).map fun v =>
      ((), { w with parts := w.parts.setIfInBounds i (some (.whole v)) }) := by
  have hstart : (make s file load i).run w = (do
      let v ← liftM (single s file load w.nodes (w.nodes.node i))
      setPart i (.whole v) : Making Unit).run w := by
    unfold make partAt? nodeAt
    simp only [bind_assoc, pure_bind, StateT.run_bind, StateT.run_get, hnew, hsingle, Option.isNone_none, if_true]
  rw [hstart]
  cases single s file load w.nodes (w.nodes.node i) <;> rfl

theorem ofGraph_of_single (s : Surroundings) (file : Text) (load : Text → Except Fault Setting) {g : Graph}
    (hroot : g.root < g.nodes.size) (hsingle : Part.empty? (g.nodes.node g.root).tag = none) :
    ofGraph s file load g = single s file load g.nodes (g.nodes.node g.root) := by
  have hfill : ∀ (k : Nat) (w : Work), w.met = #[] → (fillFrom s file load k 0).run w = .ok ((), w) := by
    intro k w hw
    cases k with
    | zero => rfl
    | succ k =>
      unfold fillFrom
      rw [StateT.run_bind, StateT.run_get, pure_bind, hw]
      rfl
  have hnew : Parts.part? (Array.replicate g.nodes.size none) g.root = none := by
    unfold Parts.part?
    rw [Array.getD_eq_getD_getElem?, Array.getElem?_replicate, if_pos hroot]
    rfl
  have hset : ∀ v,
      Parts.setting ((Array.replicate g.nodes.size none).setIfInBounds g.root (some (.whole v))) g.root = v := by
    intro v
    unfold Parts.setting Parts.unfold Parts.part?
    simp [hroot]
  unfold ofGraph
  dsimp only
  rw [StateT.run_bind, run_make hnew hsingle]
  cases single s file load g.nodes (g.nodes.node g.root) with
  | error f => rfl
  | ok v =>
    show ((fillFrom s file load g.nodes.size 0).run _).bind _ = _
    rw [hfill _ _ rfl]
    exact congrArg Except.ok (hset v)

end Content

end RequestRules.Yaml
