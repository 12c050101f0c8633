import RequestRules.Files.Path
import RequestRules.Proofs.Text

/-!
# Where relative paths lead

`Path.CountsFrom` says which folder a path counts from, and what the rest of the path is.  `Path.resolve_below`: such a
path leads to the rest below that folder, unless the rest begins with `/`; then it leads to the rest, wherever that is, and
the folder does not count (`Path.resolve_strays`).
-/

namespace RequestRules

namespace Path

/-- The rest of a path below a folder: the text of the folder, one `/` unless that ends in one, and then the rest.  A
folder without a text adds nothing. -/
def below (base rest : Text) : Text :=
  if base = [] ∨ base.last? = some (.char '/') then base ++ rest else base ++ .char '/' :: rest

/-- The folder that a path in `file` counts from, and the rest of the path. -/
inductive CountsFrom (configFolder : Option Text) (file : Text) : (p base rest : Text) → Prop
  | config {base rest : Text} (h : configFolder = some base) (hbase : base ≠ []) :
      CountsFrom configFolder file ('@' :: '/' :: rest) base rest
  | here {rest : Text} : CountsFrom configFolder file ('.' :: '/' :: rest) (folder file) rest
  | plain {p : Text} (hhere : ¬ [.char '.', .char '/'] <+: p)
      (hconfig : [.char '@', .char '/'] <+: p → configFolder = none ∨ configFolder = some []) :
      CountsFrom configFolder file p (folder file) p

/-- Behind the mark of its folder the path goes on with a `/`. -/
def Strays (configFolder : Option Text) (p : Text) : Prop :=
  (∃ base rest, configFolder = some base ∧ base ≠ [] ∧ p = .char '@' :: .char '/' :: .char '/' :: rest) ∨
    ∃ rest, p = .char '.' :: .char '/' :: .char '/' :: rest

section Resolve

variable {configFolder : Option Text} {file p base rest : Text}

theorem isAbsolute_iff : isAbsolute p = true ↔ ∃ rest, p = .char '/' :: rest := by
  unfold isAbsolute
  rw [decide_eq_true_eq, List.head?_eq_some_iff]

theorem exists_countsFrom (configFolder : Option Text) (file p : Text) :
    ∃ base rest, CountsFrom configFolder file p base rest := by
  by_cases hhere : [.char '.', .char '/'] <+: p
  · obtain ⟨rest, rfl⟩ := hhere
    exact ⟨_, _, .here⟩
  · by_cases hconfig : [.char '@', .char '/'] <+: p → configFolder = none ∨ configFolder = some []
    · exact ⟨_, _, .plain hhere hconfig⟩
    · obtain ⟨⟨rest, rfl⟩, hnone, hempty⟩ : [.char '@', .char '/'] <+: p ∧ configFolder ≠ none ∧ configFolder ≠ some [] := by
        simpa [not_or] using hconfig
      obtain ⟨base, rfl⟩ := Option.ne_none_iff_exists'.1 hnone
      refine ⟨base, rest, .config rfl ?_⟩
      rintro rfl
      exact hempty rfl

/-- The path strays exactly if its rest begins with `/`. -/
theorem CountsFrom.strays_iff (h : CountsFrom configFolder file p base rest) (hroot : isAbsolute p = false) :
    Strays configFolder p ↔ isAbsolute rest = true := by
  rw [isAbsolute_iff]
  cases h with
  | @config base rest hfolder hbase =>
    constructor
    · rintro (⟨_, r, _, _, heq⟩ | ⟨r, heq⟩)
      · exact ⟨r, (List.cons.inj (List.cons.inj heq).2).2⟩
      · exact absurd (List.cons.inj heq).1 (by decide)
    · rintro ⟨r, rfl⟩
      exact .inl ⟨base, r, hfolder, hbase, rfl⟩
  | here =>
    constructor
    · rintro (⟨_, r, _, _, heq⟩ | ⟨r, heq⟩)
      · exact absurd (List.cons.inj heq).1 (by decide)
      · exact ⟨r, (List.cons.inj (List.cons.inj heq).2).2⟩
    · rintro ⟨r, rfl⟩
      exact .inr ⟨r, rfl⟩
  | plain hhere hconfig =>
    -- neither of the marks counts, and the path itself does not begin with `/`
    refine iff_of_false ?_ fun hrest => by simp [isAbsolute_iff.2 hrest] at hroot
    rintro (⟨base, r, rfl, hbase, rfl⟩ | ⟨r, rfl⟩)
    · rcases hconfig ⟨'/' :: r, rfl⟩ with hnone | hempty
      · exact absurd hnone (by simp)
      · exact hbase (Option.some.inj hempty)
    · exact hhere ⟨'/' :: r, rfl⟩

/-- A path that counts from a folder leads to what its rest is from that folder. -/
theorem CountsFrom.resolve_eq (h : CountsFrom configFolder file p base rest) (hhome : p.head? ≠ some (.char '~'))
    (hroot : isAbsolute p = false) (home : Text) : resolve home configFolder file p = append base rest := by
  unfold resolve
  rw [if_neg hhome, hroot, if_neg Bool.false_ne_true]
  cases h with
  | config hfolder hbase =>
    obtain ⟨c, base, rfl⟩ := List.exists_cons_of_ne_nil hbase
    have hstrip : Text.strip? ('@' :: '/' :: rest) (.of "@/") = some rest := Text.strip?_append ['@', '/'] rest
    rw [hfolder, hstrip]
  | here =>
    have hconfig : Text.strip? ('.' :: '/' :: rest) (.of "@/") = none := Text.strip?_eq_none (by simp [Text.of])
    have hstrip : Text.strip? ('.' :: '/' :: rest) (.of "./") = some rest := Text.strip?_append ['.', '/'] rest
    rw [hconfig, hstrip, Option.getD_some]
    split
    · next heq => exact absurd heq (by simp)
    · rfl
  | plain hhere hconfig =>
    have hstrip : p.strip? (.of "./") = none := Text.strip?_eq_none hhere
    rw [hstrip]
    split
    · next c base q hq =>
      obtain hp : p = .of "@/" ++ q := Text.strip?_eq_some.1 hq
      rcases hconfig ⟨q, hp.symm⟩ with hnone | hempty
      · exact absurd hnone (by simp)
      · exact absurd hempty (by simp)
    · rfl

theorem append_of_isAbsolute (h : isAbsolute rest = true) (base : Text) : append base rest = rest := by
  unfold append
  rw [if_pos h]

theorem append_of_relative (h : isAbsolute rest = false) (base : Text) : append base rest = below base rest := by
  unfold append below
  rw [h, if_neg Bool.false_ne_true]
  simp only [List.isEmpty_iff]

/-- Below a folder a relative rest is as absolute as the folder. -/
theorem isAbsolute_below (h : isAbsolute rest = false) (base : Text) : isAbsolute (below base rest) = isAbsolute base := by
  cases base with
  | nil => exact h
  | cons c base =>
    unfold below isAbsolute
    split <;> rfl

/-- A rest is longer below a folder that has a text. -/
theorem eq_nil_of_eq_below (h : rest = below base rest) : base = [] := by
  have hlength := congrArg List.length h
  unfold below at hlength
  split at hlength
  · rw [List.length_append] at hlength
    exact List.length_eq_zero_iff.1 (by omega)
  · rw [List.length_append, List.length_cons] at hlength
    omega

/-- **A relative path stays below its folder, or strays.**  A path that begins neither with `~` nor with `/` counts from a
folder.  It leads to its rest below that folder, and is then as absolute as the folder, exactly if behind the mark of the
folder it does not go on with `/`; if it does, it leads to the rest itself, below the root. -/
theorem resolve_below (hhome : p.head? ≠ some (.char '~')) (hroot : p.head? ≠ some (.char '/')) (home : Text) :
    ∃ base rest, CountsFrom configFolder file p base rest ∧
      ((resolve home configFolder file p = below base rest ∧
        isAbsolute (resolve home configFolder file p) = isAbsolute base) ↔ ¬ Strays configFolder p) ∧
      (Strays configFolder p → resolve home configFolder file p = rest ∧ isAbsolute rest = true) := by
  have hrelative : isAbsolute p = false := decide_eq_false hroot
  obtain ⟨base, rest, hcounts⟩ := exists_countsFrom configFolder file p
  have hresolve := hcounts.resolve_eq hhome hrelative home
  have hstrays := hcounts.strays_iff hrelative
  refine ⟨base, rest, hcounts, ?_, ?_⟩
  · rw [hstrays, hresolve]
    constructor
    · rintro ⟨hbelow, hsame⟩ hrest
      rw [append_of_isAbsolute hrest] at hbelow hsame
      -- only the folder without a text could be in front, and that is relative
      rw [eq_nil_of_eq_below hbelow, hrest] at hsame
      exact absurd hsame (by decide)
    · intro hrest
      rw [Bool.not_eq_true] at hrest
      rw [append_of_relative hrest]
      exact ⟨rfl, isAbsolute_below hrest base⟩
  · intro h
    have hrest := hstrays.1 h
    exact ⟨hresolve.trans (append_of_isAbsolute hrest base), hrest⟩

/-- A file beside the one that names it. -/
theorem resolve_below_beside :
    let p := Text.of "./lamps.yaml"
    p.head? ≠ some (.char '~') ∧ p.head? ≠ some (.char '/') ∧
      resolve (.of "/home/me") (some (.of "/cfg")) (.of "/cfg/rooms/hall.yaml") p = .of "/cfg/rooms/lamps.yaml" ∧
      ∃ base rest, CountsFrom (some (.of "/cfg")) (.of "/cfg/rooms/hall.yaml") p base rest ∧
        ((resolve (.of "/home/me") (some (.of "/cfg")) (.of "/cfg/rooms/hall.yaml") p = below base rest ∧
          isAbsolute (resolve (.of "/home/me") (some (.of "/cfg")) (.of "/cfg/rooms/hall.yaml") p) = isAbsolute base) ↔
            ¬ Strays (some (.of "/cfg")) p) ∧
        (Strays (some (.of "/cfg")) p →
          resolve (.of "/home/me") (some (.of "/cfg")) (.of "/cfg/rooms/hall.yaml") p = rest ∧ isAbsolute rest = true) := by
  intro p
  have hhome : p.head? ≠ some (.char '~') := by decide
  have hroot : p.head? ≠ some (.char '/') := by decide
  exact ⟨hhome, hroot, by decide, resolve_below hhome hroot _⟩

/-- **A path with a mark may leave its folder**: with another `/` behind the mark it leads below the root. -/
theorem resolve_strays :
    CountsFrom (some (.of "/cfg")) (.of "/cfg/rooms/hall.yaml") (.of "@//x") (.of "/cfg") (.of "/x") ∧
      below (.of "/cfg") (.of "/x") = .of "/cfg//x" ∧
      resolve (.of "/home/me") (some (.of "/cfg")) (.of "/cfg/rooms/hall.yaml") (.of "@//x") = .of "/x" ∧
      resolve (.of "/home/me") (some (.of "/cfg")) (.of "/cfg/rooms/hall.yaml") (.of ".//x") = .of "/x" := by
  exact ⟨.config rfl (by decide), by decide, by decide, by decide⟩

end Resolve

end Path

end RequestRules
