import Mathlib.Data.List.Nodup
import RequestRules.Proofs.Json

/-!
# The layout of JSON

* `Json.renderAt_list`, `Json.renderAt_object` — a container is its parts between brackets (`Json.enclosed`);
* `Json.ascii_renderAt` — all that is written is ASCII, if the indent is;
* `Json.Exact.arranged`, `Json.Exact.same_arranged` — with all its fields in order a value is the same, but for the order of
  fields (`Json.Same`).
-/

namespace RequestRules

namespace Json

/-- Induction over a value: over the items of lists and over the values of fields. -/
theorem ind {P : Json → Prop} (null : P .null) (bool : ∀ b, P (.bool b)) (int : ∀ n, P (.int n)) (real : ∀ x, P (.real x))
    (text : ∀ t, P (.text t)) (list : ∀ xs, (∀ x ∈ xs, P x) → P (.list xs))
    (object : ∀ fs, (∀ f ∈ fs, P f.2) → P (.object fs)) (j : Json) : P j :=
  match j with
  | .null => null
  | .bool b => bool b
  | .int n => int n
  | .real x => real x
  | .text t => text t
  | .list xs => list xs fun x _ => ind null bool int real text list object x
  | .object fs => object fs fun f _ => ind null bool int real text list object f.2
termination_by j
decreasing_by
  · have hlt := List.sizeOf_lt_of_mem ‹x ∈ xs›
    rw [Json.list.sizeOf_spec]
    omega
  · obtain ⟨k, v⟩ := f
    have hlt := List.sizeOf_lt_of_mem ‹(k, v) ∈ fs›
    rw [Prod.mk.sizeOf_spec] at hlt
    rw [Json.object.sizeOf_spec]
    dsimp only
    omega

/-! ## Containers -/

/-- The parts of a container between its brackets, each behind a gap. -/
def enclosed (indent : Option Text) (depth : Nat) (opening closing : CodePoint) : List Text → Text
  | [] => [opening, closing]
  | t :: ts =>
    opening :: (newline indent (depth + 1) ++ t ++ ts.flatMap (fun u => comma indent (depth + 1) ++ u) ++
      newline indent depth ++ [closing])

def field (name value : Text) : Text := quote name ++ Text.of ": " ++ value

section Containers

variable (indent : Option Text) (depth : Nat)

theorem renderItems_eq (xs : List Json) :
    renderItems indent depth xs = (xs.map (renderAt indent depth)).flatMap fun u => comma indent depth ++ u := by
  induction xs with
  | nil => rfl
  | cons x xs ih => rw [renderItems, ih, List.map_cons, List.flatMap_cons]

theorem renderFields_eq (fs : List (Text × Json)) : renderFields indent depth fs =
    (fs.map fun f => field f.1 (renderAt indent depth f.2)).flatMap fun u => comma indent depth ++ u := by
  induction fs with
  | nil => rfl
  | cons f fs ih =>
    rw [renderFields, ih, List.map_cons, List.flatMap_cons]
    simp only [field, List.append_assoc]

theorem renderAt_list (xs : List Json) :
    renderAt indent depth (list xs) = enclosed indent depth '[' ']' (xs.map (renderAt indent (depth + 1))) := by
  cases xs with
  | nil => rfl
  | cons x xs => rw [renderAt, renderItems_eq, List.map_cons, enclosed]

theorem renderAt_object (fs : List (Text × Json)) : renderAt indent depth (object fs) =
    enclosed indent depth '\x7b' '\x7d' (fs.map fun f => field f.1 (renderAt indent (depth + 1) f.2)) := by
  cases fs with
  | nil => rfl
  | cons f fs =>
    rw [renderAt, renderFields_eq, List.map_cons, enclosed]
    simp only [field, List.append_assoc]

end Containers

/-! ## ASCII -/

def IsAscii (t : Text) : Prop := ∀ c ∈ t, c.toNat < 128

instance : DecidablePred IsAscii := fun t => List.decidableBAll (fun c : CodePoint => c.toNat < 128) t

theorem IsAscii.append {s t : Text} (hs : IsAscii s) (ht : IsAscii t) : IsAscii (s ++ t) :=
  fun c hc => (List.mem_append.1 hc).elim (hs c) (ht c)

theorem IsAscii.cons {c : CodePoint} {t : Text} (hc : c.toNat < 128) (ht : IsAscii t) : IsAscii (c :: t) := by
  intro d hd
  rcases List.mem_cons.1 hd with rfl | hd
  · exact hc
  · exact ht d hd

theorem IsAscii.flatMap {α : Type} {f : α → Text} {xs : List α} (h : ∀ x ∈ xs, IsAscii (f x)) : IsAscii (xs.flatMap f) := by
  intro c hc
  obtain ⟨x, hx, hc⟩ := List.mem_flatMap.1 hc
  exact h x hx c hc

theorem ascii_hexDigit : ∀ n < 16, (hexDigit n).toNat < 128 := by decide

theorem ascii_unit {n : Nat} (h : n < 0x10000) : IsAscii (unit n) := by
  rw [unit_eq h]
  refine .cons (by decide) (.cons (by decide) (.cons ?_ (.cons ?_ (.cons ?_ (.cons ?_ ?_)))))
  · exact ascii_hexDigit _ (by omega)
  · exact ascii_hexDigit _ (by omega)
  · exact ascii_hexDigit _ (by omega)
  · exact ascii_hexDigit _ (by omega)
  · exact fun _ h => absurd h List.not_mem_nil

theorem ascii_escape (c : CodePoint) : IsAscii (escape c) := by
  have hlt := c.toNat_lt
  unfold escape
  dsimp only
  split_ifs with h1 h2 h3 h4 h5 h6 h7 hprintable hunit
  iterate 7 decide
  · exact .cons (by omega) fun _ h => absurd h List.not_mem_nil
  · exact ascii_unit hunit
  · exact (ascii_unit (by omega)).append (ascii_unit (by omega))

theorem ascii_quote (t : Text) : IsAscii (quote t) := by
  refine .cons (by decide) (.append (.flatMap fun c _ => ascii_escape c) ?_)
  decide

theorem ascii_ofInt (n : Int) : IsAscii (Numeral.ofInt n) := by
  have hdigits : ∀ k, IsAscii (Numeral.ofNat k) := fun k c hc =>
    Whole.isAscii_of_isDigit (Numeral.forall_isDigit_ofNat k c hc)
  cases n with
  | ofNat k => exact hdigits k
  | negSucc k => exact .cons (by decide) (hdigits (k + 1))

def IsAsciiIndent (indent : Option Text) : Prop := ∀ t ∈ indent, IsAscii t

theorem ascii_newline {indent : Option Text} (h : IsAsciiIndent indent) (depth : Nat) : IsAscii (newline indent depth) := by
  cases indent with
  | none => exact fun _ h => absurd h List.not_mem_nil
  | some t =>
    refine .cons (by decide) fun c hc => ?_
    obtain ⟨u, hu, hc⟩ := List.mem_flatten.1 hc
    rw [List.eq_of_mem_replicate hu] at hc
    exact h t rfl c hc

theorem ascii_comma {indent : Option Text} (h : IsAsciiIndent indent) (depth : Nat) : IsAscii (comma indent depth) := by
  cases indent with
  | none => exact (by decide : IsAscii (.of ", "))
  | some t => exact .cons (by decide) (ascii_newline h _)

theorem ascii_enclosed {indent : Option Text} (hindent : IsAsciiIndent indent) {opening closing : CodePoint}
    (ho : opening.toNat < 128) (hc : closing.toNat < 128) {ts : List Text} (h : ∀ t ∈ ts, IsAscii t) (depth : Nat) :
    IsAscii (enclosed indent depth opening closing ts) := by
  have hclosing : IsAscii [closing] := .cons hc fun _ h => absurd h List.not_mem_nil
  cases ts with
  | nil => exact .cons ho hclosing
  | cons t ts =>
    have hrest : IsAscii (ts.flatMap fun u => comma indent (depth + 1) ++ u) :=
      .flatMap fun u hu => (ascii_comma hindent _).append (h u (List.mem_cons_of_mem _ hu))
    exact .cons ho (((((ascii_newline hindent _).append (h t List.mem_cons_self)).append hrest).append
      (ascii_newline hindent _)).append hclosing)

/-- **All that is written is ASCII**, if the indent is. -/
theorem ascii_renderAt {j : Json} (h : Exact j) {indent : Option Text} (hindent : IsAsciiIndent indent) (depth : Nat) :
    IsAscii (renderAt indent depth j) := by
  induction h generalizing depth with
  | null => exact (by decide : IsAscii (.of "null"))
  | bool b =>
    cases b with
    | true => exact (by decide : IsAscii (.of "true"))
    | false => exact (by decide : IsAscii (.of "false"))
  | int n => exact ascii_ofInt n
  | text t => exact ascii_quote t
  | list items ih =>
    rw [renderAt_list]
    refine ascii_enclosed hindent (by decide) (by decide) ?_ _
    intro t ht
    obtain ⟨x, hx, rfl⟩ := List.mem_map.1 ht
    exact ih x hx _
  | object names values ih =>
    rw [renderAt_object]
    refine ascii_enclosed hindent (by decide) (by decide) ?_ _
    intro t ht
    obtain ⟨f, hf, rfl⟩ := List.mem_map.1 ht
    refine ((ascii_quote f.1).append ?_).append (ih f hf _)
    decide

/-! ## The order of fields -/

theorem perm_inOrder {α : Type} (sort : Bool) (fs : List (Text × α)) : (inOrder sort fs).Perm fs := by
  cases sort with
  | false => exact .refl _
  | true => exact List.mergeSort_perm _ _

/-- The order depends on the names only. -/
theorem map_inOrder {α β : Type} (sort : Bool) (g : Text × α → β) (fs : List (Text × α)) :
    (inOrder sort fs).map (fun f => (f.1, g f)) = inOrder sort (fs.map fun f => (f.1, g f)) := by
  cases sort with
  | false => rfl
  | true => exact List.map_mergeSort fun _ _ _ _ => rfl

theorem sortedItems_eq (xs : List Json) : sortedItems xs = xs.map sorted := by
  induction xs with
  | nil => rfl
  | cons x xs ih => rw [sortedItems, ih, List.map_cons]

theorem sortedFields_eq (fs : List (Text × Json)) : sortedFields fs = fs.map fun f => (f.1, f.2.sorted) := by
  induction fs with
  | nil => rfl
  | cons f fs ih => rw [sortedFields, ih, List.map_cons]

theorem arranged_list (sort : Bool) (xs : List Json) : arranged sort (list xs) = list (xs.map (arranged sort)) := by
  cases sort with
  | false => exact congrArg list (List.map_id xs).symm
  | true => exact congrArg list (sortedItems_eq xs)

theorem arranged_object (sort : Bool) (fs : List (Text × Json)) :
    arranged sort (object fs) = object (inOrder sort (fs.map fun f => (f.1, arranged sort f.2))) := by
  cases sort with
  | false => exact congrArg object (List.map_id fs).symm
  | true => exact congrArg (fun gs => object (inOrder true gs)) (sortedFields_eq fs)

/-- Two values are the same, but for the order of fields: their lists item by item, and their objects with the same names
and under each name the same. -/
inductive Same : Json → Json → Prop
  | refl (j : Json) : Same j j
  | list {xs ys : List Json} (hlength : xs.length = ys.length) (items : ∀ p ∈ xs.zip ys, Same p.1 p.2) :
      Same (list xs) (list ys)
  | object {fs gs : List (Text × Json)} (names : (fs.map (·.1)).Perm (gs.map (·.1)))
      (values : ∀ f ∈ fs, ∀ g ∈ gs, f.1 = g.1 → Same f.2 g.2) : Same (object fs) (object gs)

theorem names_arranged (sort : Bool) (fs : List (Text × Json)) :
    ((inOrder sort (fs.map fun f => (f.1, arranged sort f.2))).map (·.1)).Perm (fs.map (·.1)) := by
  have hnames : (fs.map fun f => (f.1, arranged sort f.2)).map (·.1) = fs.map (·.1) := by
    rw [List.map_map]
    rfl
  have hperm := (perm_inOrder sort (fs.map fun f => (f.1, arranged sort f.2))).map (·.1)
  rwa [hnames] at hperm

/-- A field of what is arranged comes from a field of the same name. -/
theorem exists_of_mem_arranged {sort : Bool} {fs : List (Text × Json)} {f : Text × Json}
    (h : f ∈ inOrder sort (fs.map fun f => (f.1, arranged sort f.2))) : ∃ g ∈ fs, f = (g.1, arranged sort g.2) := by
  have hmem := (perm_inOrder _ _).mem_iff.1 h
  obtain ⟨g, hg, rfl⟩ := List.mem_map.1 hmem
  exact ⟨g, hg, rfl⟩

theorem Exact.arranged {j : Json} (h : Exact j) (sort : Bool) : Exact (j.arranged sort) := by
  induction h with
  | null => cases sort <;> exact .null
  | bool b => cases sort <;> exact .bool b
  | int n => cases sort <;> exact .int n
  | text t => cases sort <;> exact .text t
  | list items ih =>
    rw [arranged_list]
    refine .list fun x hx => ?_
    obtain ⟨y, hy, rfl⟩ := List.mem_map.1 hx
    exact ih y hy
  | object names values ih =>
    rw [arranged_object]
    refine .object ((names_arranged sort _).nodup_iff.2 names) fun f hf => ?_
    obtain ⟨g, hg, rfl⟩ := exists_of_mem_arranged hf
    exact ih g hg

theorem Unpaired.arranged {j : Json} (h : Unpaired j) (sort : Bool) : Unpaired (j.arranged sort) := by
  induction j using Json.ind with
  | list xs ih =>
    rw [arranged_list, unpaired_list]
    intro x hx
    obtain ⟨y, hy, rfl⟩ := List.mem_map.1 hx
    exact ih y hy (unpaired_list.1 h y hy)
  | object fs ih =>
    rw [arranged_object, unpaired_object]
    intro f hf
    obtain ⟨g, hg, rfl⟩ := exists_of_mem_arranged hf
    obtain ⟨hname, hvalue⟩ := unpaired_object.1 h g hg
    exact ⟨hname, ih g hg hvalue⟩
  | _ => cases sort <;> exact h

/-- **With its fields in order a value is the same**, but for that order. -/
theorem Exact.same_arranged {j : Json} (h : Exact j) (sort : Bool) : Same (j.arranged sort) j := by
  induction h with
  | null => cases sort <;> exact .refl _
  | bool b => cases sort <;> exact .refl _
  | int n => cases sort <;> exact .refl _
  | text t => cases sort <;> exact .refl _
  | @list xs items ih =>
    rw [arranged_list]
    refine .list (List.length_map _) fun p hp => ?_
    have hzip : (xs.map (Json.arranged sort)).zip xs = xs.map fun x => (x.arranged sort, x) := by
      simpa using List.zip_map' (f := Json.arranged sort) (g := id) (l := xs)
    rw [hzip] at hp
    obtain ⟨x, hx, rfl⟩ := List.mem_map.1 hp
    exact ih x hx
  | @object fs names values ih =>
    rw [arranged_object]
    refine .object (names_arranged sort fs) fun f hf g hg hname => ?_
    obtain ⟨e, he, rfl⟩ := exists_of_mem_arranged hf
    obtain rfl : e = g := List.inj_on_of_nodup_map names he hg hname
    exact ih e he

end Json

end RequestRules
