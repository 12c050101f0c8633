import RequestRules.Proofs.Files
import RequestRules.Proofs.Yaml.Content

/-!
# Files inside of each other

A file can include files.  Nothing looks out for a file that includes itself, be it through others.  `Yaml.guarded` is
a load that does: to come to a file that is being loaded is a fault there, however the path is written.
`Yaml.include_ends_or_repeats` compares the two.  Either the guard finds nothing; then a load has the same result without
it, and needs no more files inside of each other than there are.  Or it finds such a file; then a load goes on without an
end.

The two are compared by bounds on the files inside of each other.  What is found within a bound, is found with the guard
(`enter_le_guarded`): a load that comes back to a file would have to load it within a smaller bound, and if it can, the
larger one makes no difference.  What is found with the guard, is found within a bound of as many files as are left
(`guarded_le_enter`).  The guard knows files by their places, and a path in a file leads to the same place however the
path of the file is written (`enter_of_file?_eq`).
-/

namespace RequestRules.Yaml

open Likeness

/-! ## Loads with a bound and loads with a guard -/

/-- The nodes of the file that a path leads to. -/
def graphOf (s : Surroundings) (path : Text) : Except Fault Graph :=
  match s.files.read? path with
  | some t => Graph.ofFile t
  | none => .error (.noFile path)

/-- The content of the file that a path leads to, with at most `k` files inside of each other, of which it is the first. -/
def enter (s : Surroundings) (k : Nat) (path : Text) : Except Fault Setting := (graphOf s path).bind (loadWith s k path)

theorem loadWith_succ (s : Surroundings) (k : Nat) (file : Text) (g : Graph) :
    loadWith s (k + 1) file g = Content.ofGraph s file (enter s k) g := by
  have hload : (fun p => match s.files.read? p with
      | some t => (Graph.ofFile t).bind (loadWith s k p)
      | none => .error (.noFile p)) = enter s k := by
    funext p
    unfold enter graphOf
    cases s.files.read? p <;> rfl
  rw [← hload]
  rfl

theorem enter_succ (s : Surroundings) (k : Nat) (path : Text) :
    enter s (k + 1) path = (graphOf s path).bind (Content.ofGraph s path (enter s k)) :=
  congrArg (graphOf s path).bind (funext (loadWith_succ s k path))

def filesLeft (s : Surroundings) (above : List Place) : List (Place × Text) :=
  s.files.texts.filter fun e => e.1 ∉ above

theorem length_filesLeft_cons {s : Surroundings} {above : List Place} {path : Text} {a : Place} {t : Text}
    (h : s.files.file? path = some (a, t)) (ha : a ∉ above) :
    (filesLeft s (a :: above)).length < (filesLeft s above).length := by
  have hcons : filesLeft s (a :: above) = (filesLeft s above).filter fun e => e.1 ≠ a := by
    unfold filesLeft
    rw [List.filter_filter]
    refine List.filter_congr fun e _ => ?_
    simp only [List.mem_cons, not_or, Bool.decide_and]
  have hmem : (a, t) ∈ filesLeft s above := List.mem_filter.2 ⟨Files.mem_of_file? h, decide_eq_true ha⟩
  rw [hcons, List.length_filter_lt_length_iff_exists]
  exact ⟨(a, t), hmem, by simp⟩

/-- The content of the file that a path leads to.  It is a fault to come to one of the files `above`, which are being
loaded. -/
def guarded (s : Surroundings) (c : Fault) (above : List Place) (path : Text) : Except Fault Setting :=
  match _h : s.files.file? path with
  | none => .error (.noFile path)
  | some (a, _) =>
    if _ha : a ∈ above then .error c
    else (graphOf s path).bind (Content.ofGraph s path fun p => guarded s c (a :: above) p)
termination_by (filesLeft s above).length
decreasing_by exact length_filesLeft_cons _h _ha

section Equations

variable {s : Surroundings} {c : Fault} {above : List Place} {path : Text} {a : Place} {t : Text}

theorem graphOf_of_none (h : s.files.file? path = none) : graphOf s path = .error (.noFile path) := by
  unfold graphOf Files.read?
  rw [Files.get?_eq, h]
  rfl

theorem graphOf_of_some (h : s.files.file? path = some (a, t)) : graphOf s path = Graph.ofFile (Files.newlines t) := by
  unfold graphOf Files.read?
  rw [Files.get?_eq, h]
  rfl

theorem loadFile?_of_file? {e : Place × Text} (h : s.files.file? path = some e) :
    loadFile? s path = some (enter s (s.files.texts.length + 1) path) := by
  unfold loadFile? enter Files.read?
  rw [Files.get?_eq, graphOf_of_some h, h]
  rfl

theorem exists_file?_of_loadFile? {r : Except Fault Setting} (h : loadFile? s path = some r) :
    ∃ e, s.files.file? path = some e := by
  cases hfile : s.files.file? path with
  | some e => exact ⟨e, rfl⟩
  | none =>
    unfold loadFile? Files.read? at h
    rw [Files.get?_eq, hfile] at h
    cases h

theorem guarded_of_none (h : s.files.file? path = none) : guarded s c above path = .error (.noFile path) := by
  rw [guarded]
  split
  · rfl
  · next a t h' => rw [h] at h'; cases h'

theorem guarded_of_some (h : s.files.file? path = some (a, t)) :
    guarded s c above path = if a ∈ above then .error c
      else (graphOf s path).bind (Content.ofGraph s path (guarded s c (a :: above))) := by
  rw [guarded]
  split
  · next h' => rw [h] at h'; cases h'
  · next a' t' h' =>
    obtain ⟨rfl, rfl⟩ := Prod.mk.inj (Option.some.inj (h.symm.trans h'))
    rfl

theorem guarded_of_mem (h : s.files.file? path = some (a, t)) (ha : a ∈ above) : guarded s c above path = .error c := by
  rw [guarded_of_some h, if_pos ha]

theorem guarded_of_not_mem (h : s.files.file? path = some (a, t)) (ha : a ∉ above) :
    guarded s c above path = (graphOf s path).bind (Content.ofGraph s path (guarded s c (a :: above))) := by
  rw [guarded_of_some h, if_neg ha]

end Equations

/-! ## Larger bounds -/

/-- The result on the left is the one on the right, unless it has been given up. -/
def Likeness.upTo : Likeness where
  exact := True
  Lost f := f = .endless
  Faults f g := f = g
  lost_or_faults _ := .inr rfl

theorem Likeness.alike_upTo {x y : Except Fault Setting} (h : upTo.Alike upTo.AlikeSettings x y) :
    x = .error .endless ∨ x = y := by
  rcases h with h | h | h
  · exact .inl (congrArg Except.error h)
  · exact .inr (congrArg Except.error h)
  · exact .inr (congrArg Except.ok (h.eq trivial))

section Bounds

variable {s : Surroundings} {path : Text} {k m : Nat}

theorem enter_le_succ (s : Surroundings) (k : Nat) (path : Text) :
    upTo.Alike upTo.AlikeSettings (enter s k path) (enter s (k + 1) path) := by
  induction k generalizing path with
  | zero => exact .bind_same _ fun g => .lost rfl
  | succ k ih =>
    rw [enter_succ, enter_succ]
    exact .bind_same _ (Content.alike_ofGraph ⟨fun _ => rfl, fun p => ih _⟩)

theorem enter_le (h : k ≤ m) (path : Text) : enter s k path = .error .endless ∨ enter s k path = enter s m path := by
  induction m, h using Nat.le_induction with
  | base => exact .inr rfl
  | succ m _ ih =>
    rcases ih with hk | hk
    · exact .inl hk
    · rw [hk]
      exact alike_upTo (enter_le_succ s m path)

theorem enter_endless_of_le (h : k ≤ m) (hm : enter s m path = .error .endless) : enter s k path = .error .endless := by
  rcases enter_le h path with hk | hk
  · exact hk
  · rw [hk, hm]

end Bounds

/-! ## Paths that are written differently -/

/-- If the result on the right has been given up, so has the one on the left. -/
def Likeness.givenUp : Likeness where
  exact := False
  Lost f := f = .endless
  Faults _ g := g ≠ .endless
  lost_or_faults _ := em _

theorem Likeness.alike_givenUp {x y : Except Fault Setting} (h : givenUp.Alike givenUp.AlikeSettings x y)
    (hy : y = .error .endless) : x = .error .endless := by
  subst hy
  cases h with
  | lost h => exact congrArg Except.error h
  | faults h => exact absurd rfl h

theorem alike_graphOf {s : Surroundings} {path path' : Text} (h : s.files.file? path = s.files.file? path') :
    givenUp.Alike (· = ·) (graphOf s path) (graphOf s path') := by
  cases hfile : s.files.file? path with
  | none =>
    rw [graphOf_of_none hfile, graphOf_of_none (h ▸ hfile)]
    exact .faults nofun
  | some e =>
    rw [graphOf_of_some hfile, graphOf_of_some (h ▸ hfile)]
    exact .refl (fun _ => rfl) _

/-- Whether a load is given up does not depend on how the path is written. -/
theorem enter_of_file?_eq {s : Surroundings} (hs : s.files.Sound) (k : Nat) {path path' : Text}
    (h : s.files.file? path = s.files.file? path') :
    givenUp.Alike givenUp.AlikeSettings (enter s k path) (enter s k path') := by
  induction k generalizing path path' with
  | zero => exact .bind (alike_graphOf h) fun _ _ _ => .lost rfl
  | succ k ih =>
    cases hfile : s.files.file? path with
    | none =>
      rw [enter, enter, graphOf_of_none hfile, graphOf_of_none (h ▸ hfile)]
      exact .faults nofun
    | some e =>
      -- the paths in the two may differ, but not the files that they lead to
      have hsame : ∀ p, s.files.file? (Path.resolve s.home s.configFolder path p) =
          s.files.file? (Path.resolve s.home s.configFolder path' p) :=
        hs.file?_resolve hfile (h ▸ hfile) s.home s.configFolder
      rw [enter_succ, enter_succ, graphOf_of_some hfile, graphOf_of_some (h ▸ hfile)]
      exact .bind_same _ (Content.alike_ofGraph ⟨False.elim, fun p => ih (hsame p)⟩)

theorem enter_endless_of_place {s : Surroundings} (hs : s.files.Sound) {k : Nat} {path path' : Text} {e e' : Place × Text}
    (h : s.files.file? path = some e) (h' : s.files.file? path' = some e') (hplace : e.1 = e'.1)
    (hend : enter s k path' = .error .endless) : enter s k path = .error .endless := by
  have hfile : s.files.file? path = s.files.file? path' := by
    rw [h, h', Files.eq_of_place h h' hplace]
  exact alike_givenUp (enter_of_file?_eq hs k hfile) hend

/-! ## With and without the guard -/

section Guard

variable {s : Surroundings}

theorem enter_le_guarded (hs : s.files.Sound) (m : Nat) (above : List Place) (path : Text)
    (habove : ∀ p e, s.files.file? p = some e → e.1 ∈ above → enter s m p = .error .endless) :
    upTo.Alike upTo.AlikeSettings (enter s m path) (guarded s .endless above path) := by
  induction m using Nat.strong_induction_on generalizing above path with
  | _ m ih =>
    cases h : s.files.file? path with
    | none =>
      rw [guarded_of_none h, enter, graphOf_of_none h]
      exact .error _
    | some e =>
      by_cases ha : e.1 ∈ above
      · rw [habove path e h ha]
        exact .lost rfl
      rw [guarded_of_not_mem h ha]
      cases m with
      | zero => exact .bind_same _ fun g => .lost rfl
      | succ m =>
        have hlower : ∀ p e, s.files.file? p = some e → e.1 ∈ above → enter s m p = .error .endless :=
          fun p e he ha => enter_endless_of_le (Nat.le_succ m) (habove p e he ha)
        by_cases hend : enter s m path = .error .endless
        · -- the smaller bound is too small for this file, however its path is written
          rw [enter_succ]
          refine .bind_same _ (Content.alike_ofGraph ⟨fun _ => rfl, fun p => ?_⟩)
          refine ih m (Nat.lt_succ_self m) (e.1 :: above) _ fun p' e' he' ha' => ?_
          rcases List.mem_cons.1 ha' with hplace | ha'
          · exact enter_endless_of_place hs he' h hplace hend
          · exact hlower p' e' he' ha'
        · -- and if it is not, the larger bound makes no difference
          rcases enter_le (Nat.le_succ m) path with hle | hle
          · exact absurd hle hend
          · rw [← hle, ← guarded_of_not_mem h ha]
            exact ih m (Nat.lt_succ_self m) above path hlower

theorem guarded_le_enter (m : Nat) (above : List Place) (path : Text) (hm : (filesLeft s above).length ≤ m) :
    upTo.Alike upTo.AlikeSettings (guarded s .endless above path) (enter s m path) := by
  induction m using Nat.strong_induction_on generalizing above path with
  | _ m ih =>
    cases h : s.files.file? path with
    | none =>
      rw [guarded_of_none h, enter, graphOf_of_none h]
      exact .error _
    | some e =>
      by_cases ha : e.1 ∈ above
      · rw [guarded_of_mem h ha]
        exact .lost rfl
      · rw [guarded_of_not_mem h ha]
        have hlt := length_filesLeft_cons h ha
        obtain ⟨k, rfl⟩ : ∃ k, m = k + 1 := ⟨m - 1, by omega⟩
        rw [enter_succ]
        refine .bind_same _ (Content.alike_ofGraph ⟨fun _ => rfl, fun p => ?_⟩)
        exact ih k (Nat.lt_succ_self k) (e.1 :: above) _ (by omega)

/-- With as large a bound as there are files, a load without the guard is the one with it. -/
theorem enter_eq_guarded (hs : s.files.Sound) {k : Nat} (hk : s.files.texts.length ≤ k) (path : Text) :
    enter s k path = guarded s .endless [] path := by
  have hleft : (filesLeft s []).length ≤ k := (List.length_filter_le _ _).trans hk
  have hle := alike_upTo (enter_le_guarded hs k [] path fun _ _ _ => nofun)
  have hge := alike_upTo (guarded_le_enter k [] path hleft)
  rcases hle with hle | hle
  · rcases hge with hge | hge
    · rw [hle, hge]
    · exact hge.symm
  · exact hle

/-! ### What the guard finds -/

/-- The results are the same, or both are what the guard finds. -/
def Likeness.found (c d : Fault) : Likeness where
  exact := True
  Lost _ := False
  Faults f g := f = g ∨ f = c ∧ g = d
  lost_or_faults _ := .inr (.inl rfl)

theorem Likeness.alike_found {c d : Fault} {x y : Except Fault Setting}
    (h : (found c d).Alike (found c d).AlikeSettings x y) : x = y ∨ x = .error c ∧ y = .error d := by
  rcases h with h | (h | ⟨hc, hd⟩) | h
  · exact h.elim
  · exact .inl (congrArg Except.error h)
  · exact .inr ⟨congrArg Except.error hc, congrArg Except.error hd⟩
  · exact .inl (congrArg Except.ok (h.eq trivial))

theorem alike_guarded (c d : Fault) (m : Nat) (above : List Place) (path : Text) (hm : (filesLeft s above).length ≤ m) :
    (found c d).Alike (found c d).AlikeSettings (guarded s c above path) (guarded s d above path) := by
  induction m using Nat.strong_induction_on generalizing above path with
  | _ m ih =>
    cases h : s.files.file? path with
    | none =>
      rw [guarded_of_none h, guarded_of_none h]
      exact .error _
    | some e =>
      by_cases ha : e.1 ∈ above
      · rw [guarded_of_mem h ha, guarded_of_mem h ha]
        exact .faults (.inr ⟨rfl, rfl⟩)
      · rw [guarded_of_not_mem h ha, guarded_of_not_mem h ha]
        have hlt := length_filesLeft_cons h ha
        refine .bind_same _ (Content.alike_ofGraph ⟨fun _ => rfl, fun p => ?_⟩)
        exact ih (m - 1) (by omega) (e.1 :: above) _ (by omega)

/-- Either the guard finds nothing, or what it finds is the result. -/
theorem guarded_or_found (s : Surroundings) (path : Text) :
    (∃ r, ∀ c, guarded s c [] path = r) ∨ ∀ c, guarded s c [] path = .error c := by
  have hall : ∀ c d, guarded s c [] path = guarded s d [] path ∨
      guarded s c [] path = .error c ∧ guarded s d [] path = .error d :=
    fun c d => alike_found (alike_guarded c d _ [] path le_rfl)
  rcases hall .endless .malformed with heq | ⟨hendless, hmalformed⟩
  · -- a result cannot be two faults
    refine .inl ⟨guarded s .endless [] path, fun c => ?_⟩
    rcases hall c .endless with hc | ⟨hc, hendless⟩
    · exact hc
    · rcases hall c .malformed with hc' | ⟨-, hmalformed⟩
      · rw [hc', heq]
      · rw [hendless, hmalformed] at heq
        cases heq
  · refine .inr fun c => ?_
    rcases hall c .endless with hc | ⟨hc, -⟩
    · rcases hall c .malformed with hc' | ⟨hc', -⟩
      · rw [hc, hendless, hmalformed] at hc'
        cases hc'
      · exact hc'
    · exact hc

/-- **A load without a guard has the result that it has with one, or does not end.**  Let no file be a folder, too, and
let `path` lead to a file.  A guard that reports files which are being loaded, however their paths are written, finds
nothing or something:
* if it finds nothing, the result is the same without it, and with any bound of at least as many files inside of each
  other as there are;
* if it finds something, every bound on the files inside of each other is too small. -/
theorem include_ends_or_repeats (hs : s.files.Sound) {path : Text} {r : Except Fault Setting}
    (h : loadFile? s path = some r) :
    ((∀ c, guarded s c [] path = r) ∧ ∀ k, s.files.texts.length ≤ k → enter s k path = r) ∨
      (r = .error .endless ∧ (∀ c, guarded s c [] path = .error c) ∧ ∀ k, enter s k path = .error .endless) := by
  obtain ⟨e, he⟩ := exists_file?_of_loadFile? h
  obtain rfl := Option.some.inj ((loadFile?_of_file? he).symm.trans h)
  rcases guarded_or_found s path with ⟨r, hr⟩ | hfound
  · have henter : ∀ k, s.files.texts.length ≤ k → enter s k path = r :=
      fun k hk => (enter_eq_guarded hs hk path).trans (hr .endless)
    refine .inl ⟨fun c => ?_, fun k hk => ?_⟩
    · rw [hr, henter _ (Nat.le_succ _)]
    · rw [henter k hk, henter _ (Nat.le_succ _)]
  · have hendless : ∀ k, enter s k path = .error .endless := by
      intro k
      have hk := enter_eq_guarded hs (Nat.le_max_right k _) path
      rw [hfound] at hk
      exact enter_endless_of_le (Nat.le_max_left k _) hk
    exact .inr ⟨hendless _, hfound, hendless⟩

/-- Two files in a folder, which is the configuration folder. -/
def besideEachOther (a b : String) : Surroundings where
  home := []
  files := (({} : Files).put (.of "cfg/a.yaml") (.of a)).put (.of "cfg/b.yaml") (.of b)
  configFolder := some (.of "cfg")

/-- A file that includes another one twice. -/
def twice : Surroundings := besideEachOther "- !include ./b.yaml\n- !include '@/b.yaml'\n" "b\n"

/-- A file may be included twice, if it is not inside of itself. -/
theorem include_ends_or_repeats_twice :
    twice.files.Sound ∧ ∃ v, loadFile? twice (.of "cfg/a.yaml") = some (.ok v) ∧
      (∀ c, guarded twice c [] (.of "cfg/a.yaml") = .ok v) ∧ ∀ k, 2 ≤ k → enter twice k (.of "cfg/a.yaml") = .ok v := by
  have hsound : twice.files.Sound := by decide +kernel
  have hcount : twice.files.texts.length = 2 := by decide +kernel
  have hok : (loadFile? twice (.of "cfg/a.yaml")).any Except.isOk = true := by decide +kernel
  obtain ⟨r, hr, hisOk⟩ := (Option.any_eq_true _ _).1 hok
  cases r with
  | error f => cases hisOk
  | ok v =>
    rcases include_ends_or_repeats hsound hr with ⟨hguarded, henter⟩ | ⟨hend, -⟩
    · rw [hcount] at henter
      exact ⟨hsound, v, hr, hguarded, henter⟩
    · cases hend

end Guard

/-! ## Files that include each other -/

/-- A document that is nothing but an include. -/
def includeOf (t : Text) : Graph := ⟨#[⟨.of "!include", .scalar t⟩], 0⟩

section IncludeOf

variable {s : Surroundings} {path t : Text}

theorem ofGraph_includeOf (s : Surroundings) (file : Text) (load : Text → Except Fault Setting)
    (hhome : Content.homeFault? t = none) :
    Content.ofGraph s file load (includeOf t) = load (Path.resolve s.home s.configFolder file t) := by
  have hsingle : Part.empty? (.of "!include") = none := by decide
  have hpath : Content.readPath s file ⟨.of "!include", .scalar t⟩ = .ok (Path.resolve s.home s.configFolder file t) := by
    unfold Content.readPath
    rw [Node.text?]
    dsimp only
    rw [hhome]
  rw [Content.ofGraph_of_single s file load (g := includeOf t) Nat.one_pos hsingle, Content.single]
  exact (if_pos rfl).trans (congrArg (·.bind load) hpath)

theorem eq_includeOf {x : Except Fault Graph} (h : x.map (fun g => (g.nodes, g.root)) = .ok ((includeOf t).nodes, 0)) :
    x = .ok (includeOf t) := by
  cases x with
  | error f => cases h
  | ok g =>
    obtain ⟨nodes, root⟩ := g
    obtain ⟨rfl, rfl⟩ := Prod.mk.inj (Except.ok.inj h)
    rfl

theorem content_of_includeOf (h : graphOf s path = .ok (includeOf t)) (hhome : Content.homeFault? t = none)
    (load : Text → Except Fault Setting) :
    (graphOf s path).bind (Content.ofGraph s path load) = load (Path.resolve s.home s.configFolder path t) := by
  rw [h]
  exact ofGraph_includeOf s path load hhome

end IncludeOf

/-- Two files that include each other. -/
def circle : Surroundings := besideEachOther "!include ./b.yaml\n" "!include '@/a.yaml'\n"

/-- Each of the two files is fine in itself, but a load goes on without an end. -/
theorem include_circle :
    circle.files.Sound ∧
      (∀ p ∈ [Text.of "cfg/a.yaml", .of "cfg/b.yaml"], ∀ v,
        (graphOf circle p).bind (Content.ofGraph circle p fun _ => .ok v) = .ok v) ∧
      (∀ c, guarded circle c [] (.of "cfg/a.yaml") = .error c) ∧
      (∀ k, enter circle k (.of "cfg/a.yaml") = .error .endless) ∧
      loadFile? circle (.of "cfg/a.yaml") = some (.error .endless) := by
  have ha : graphOf circle (.of "cfg/a.yaml") = .ok (includeOf (.of "./b.yaml")) := eq_includeOf (by decide +kernel)
  have hb : graphOf circle (.of "cfg/b.yaml") = .ok (includeOf (.of "@/a.yaml")) := eq_includeOf (by decide +kernel)
  have hab : Path.resolve circle.home circle.configFolder (.of "cfg/a.yaml") (.of "./b.yaml") = .of "cfg/b.yaml" := by
    decide +kernel
  have hba : Path.resolve circle.home circle.configFolder (.of "cfg/b.yaml") (.of "@/a.yaml") = .of "cfg/a.yaml" := by
    decide +kernel
  have henter : ∀ k, enter circle k (.of "cfg/a.yaml") = .error .endless ∧
      enter circle k (.of "cfg/b.yaml") = .error .endless := by
    intro k
    induction k with
    | zero =>
      rw [enter, enter, ha, hb]
      exact ⟨rfl, rfl⟩
    | succ k ih =>
      rw [enter_succ, enter_succ, content_of_includeOf ha rfl, content_of_includeOf hb rfl, hab, hba]
      exact ih.symm
  have hfile : (circle.files.file? (.of "cfg/a.yaml")).map (·.1) = some [.of "cfg", .of "a.yaml"] := by decide +kernel
  have hfile' : (circle.files.file? (.of "cfg/b.yaml")).map (·.1) = some [.of "cfg", .of "b.yaml"] := by decide +kernel
  obtain ⟨e, he, hplace⟩ := Option.map_eq_some_iff.1 hfile
  obtain ⟨e', he', hplace'⟩ := Option.map_eq_some_iff.1 hfile'
  refine ⟨by decide +kernel, fun p hp v => ?_, fun c => ?_, fun k => (henter k).1, ?_⟩
  · rcases List.mem_cons.1 hp with rfl | hp
    · exact content_of_includeOf ha rfl _
    · rw [List.mem_singleton.1 hp]
      exact content_of_includeOf hb rfl _
  · have hapart : e'.1 ∉ [e.1] := by
      rw [hplace, hplace']
      decide
    rw [guarded_of_not_mem he List.not_mem_nil, content_of_includeOf ha rfl, hab, guarded_of_not_mem he' hapart,
      content_of_includeOf hb rfl, hba, guarded_of_mem he (by simp)]
  · rw [loadFile?_of_file? he, (henter _).1]

end RequestRules.Yaml
