import RequestRules.Files
import RequestRules.Proofs.Files.Path

/-!
# Which file a path leads to

Paths that are written differently can lead to one file.  What such paths have in common is the place of the file.  All
that is named in the file is found by way of the place above it (`Files.walk?_append_folder`), and so with each of the paths
(`Files.Sound.file?_resolve`).  This needs that no file is a folder, too (`Files.Sound`), or `.` and `..` could lead to a
file.
-/

namespace RequestRules

namespace Files

/-- No file is a folder, too. -/
def Sound (fs : Files) : Prop := ∀ e ∈ fs.texts, fs.isFolder e.1 = false

instance (fs : Files) : Decidable fs.Sound :=
  List.decidableBAll (fun e : Place × Text => fs.isFolder e.1 = false) fs.texts

def fileAt? (fs : Files) (a : Place) : Option (Place × Text) := (fs.texts.lookup a).map (a, ·)

def file? (fs : Files) (p : Text) : Option (Place × Text) := (fs.place? p).bind fs.fileAt?

/-- All that a place is below is a folder. -/
def Reached (fs : Files) (a : Place) : Prop := ∀ b, b <+: a → b ≠ a → fs.isFolder b = true

section Walk

variable {fs : Files} {a b : Place} {p : Text} {ps : List Text}

theorem fileAt?_eq_some {e : Place × Text} (h : fs.fileAt? a = some e) : e.1 = a ∧ fs.texts.lookup a = some e.2 := by
  obtain ⟨t, ht, rfl⟩ := Option.map_eq_some_iff.1 h
  exact ⟨rfl, ht⟩

theorem mem_of_lookup {t : Text} (h : fs.texts.lookup a = some t) : (a, t) ∈ fs.texts := by
  obtain ⟨before, behind, htexts, -⟩ := List.lookup_eq_some_iff.1 h
  rw [htexts]
  exact List.mem_append_right _ List.mem_cons_self

theorem Sound.fileAt?_eq_none (h : fs.Sound) (hfolder : fs.isFolder a = true) : fs.fileAt? a = none := by
  cases hfile : fs.texts.lookup a with
  | none =>
    unfold fileAt?
    rw [hfile]
    rfl
  | some t =>
    have hno := h _ (mem_of_lookup hfile)
    rw [hfolder] at hno
    cases hno

theorem file?_eq_some {e : Place × Text} (h : fs.file? p = some e) :
    fs.place? p = some e.1 ∧ fs.texts.lookup e.1 = some e.2 := by
  obtain ⟨a, hplace, hfile⟩ := Option.bind_eq_some_iff.1 h
  obtain ⟨rfl, htext⟩ := fileAt?_eq_some hfile
  exact ⟨hplace, htext⟩

theorem mem_of_file? {e : Place × Text} (h : fs.file? p = some e) : e ∈ fs.texts := mem_of_lookup (file?_eq_some h).2

/-- Of one place there is one text. -/
theorem eq_of_place {q : Text} {e e' : Place × Text} (h : fs.file? p = some e) (h' : fs.file? q = some e')
    (hplace : e.1 = e'.1) : e = e' := by
  have htext := (file?_eq_some h).2
  rw [hplace, (file?_eq_some h').2] at htext
  exact Prod.ext hplace (Option.some.inj htext).symm

theorem get?_eq (fs : Files) (p : Text) : fs.get? p = (fs.file? p).map (·.2) := by
  unfold get? file? fileAt?
  cases fs.place? p with
  | none => rfl
  | some a =>
    rw [Option.bind_some, Option.bind_some, Option.map_map]
    exact Option.map_id'.symm

theorem walk?_append (ps qs : List Text) : fs.walk? a (ps ++ qs) = (fs.walk? a ps).bind (fs.walk? · qs) := by
  induction ps generalizing a with
  | nil => rfl
  | cons p ps ih =>
    rw [List.cons_append, walk?, walk?]
    by_cases ha : fs.isFolder a = true
    · rw [if_pos ha, if_pos ha, ih]
    · rw [if_neg ha, if_neg ha]
      rfl

theorem walk?_nil_cons (hps : ps ≠ []) : fs.walk? a ([] :: ps) = fs.walk? a ps := by
  obtain ⟨p, ps, rfl⟩ := List.exists_cons_of_ne_nil hps
  have hstay : a.step [] = a := if_pos (Or.inl rfl)
  rw [walk?, hstay]
  by_cases ha : fs.isFolder a = true
  · rw [if_pos ha]
  · rw [if_neg ha, walk?, if_neg ha]

theorem walk?_replicate_append (k : Nat) (hps : ps ≠ []) :
    fs.walk? a (List.replicate k [] ++ ps) = fs.walk? a ps := by
  induction k with
  | zero => rfl
  | succ k ih =>
    rw [List.replicate_succ, List.cons_append, walk?_nil_cons, ih]
    exact List.append_ne_nil_of_right_ne_nil _ hps

/-! ### Places that are reached -/

theorem isFolder_of_all (h : a.all (· = [.char '.', .char '.']) = true) : fs.isFolder a = true := by
  unfold isFolder
  rw [h]
  rfl

theorem reached_of_all (h : a.all (· = [.char '.', .char '.']) = true) : fs.Reached a := by
  intro b hb _
  refine isFolder_of_all ?_
  rw [List.all_eq_true] at h ⊢
  exact fun p hp => h p (hb.subset hp)

theorem reached_snoc (ha : fs.isFolder a = true) (h : fs.Reached a) (p : Text) : fs.Reached (a ++ [p]) := by
  intro b hb hne
  rcases List.prefix_concat_iff.1 hb with rfl | hb
  · exact absurd rfl hne
  · by_cases hba : b = a
    · rwa [hba]
    · exact h b hb hba

theorem reached_up (ha : fs.isFolder a = true) (h : fs.Reached a) : fs.Reached a.up ∧ fs.isFolder a.up = true := by
  unfold Place.up
  split_ifs with hroot hall
  · exact ⟨h, ha⟩
  · have hup : (a ++ [Text.of ".."]).all (· = [.char '.', .char '.']) = true := by
      rw [List.all_append, hall]
      rfl
    exact ⟨reached_of_all hup, isFolder_of_all hup⟩
  · have hne : a ≠ [] := by
      rintro rfl
      exact hall rfl
    have hlt : a.dropLast.length < a.length := by
      rw [List.length_dropLast]
      have := List.length_pos_of_ne_nil hne
      omega
    refine ⟨fun b hb _ => h b (hb.trans (List.dropLast_prefix a)) ?_, h _ (List.dropLast_prefix a) ?_⟩
    · rintro rfl
      exact absurd hb.length_le (by omega)
    · intro heq
      rw [heq] at hlt
      omega

theorem reached_step (ha : fs.isFolder a = true) (h : fs.Reached a) (p : Text) : fs.Reached (a.step p) := by
  unfold Place.step
  split_ifs
  · exact h
  · exact (reached_up ha h).1
  · exact reached_snoc ha h p

theorem reached_walk? (h : fs.Reached a) (hb : fs.walk? a ps = some b) : fs.Reached b := by
  induction ps generalizing a with
  | nil => rwa [← Option.some.inj hb]
  | cons p ps ih =>
    unfold walk? at hb
    by_cases ha : fs.isFolder a = true
    · rw [if_pos ha] at hb
      exact ih (reached_step ha h p) hb
    · rw [if_neg ha] at hb
      cases hb

/-- What is reached and is no folder is reached by a name from the folder above it. -/
theorem walk?_dropLast (h : fs.Reached a) (hps : fs.walk? a (ps ++ [p]) = some b) (hb : fs.isFolder b = false) :
    fs.walk? a ps = some b.dropLast := by
  rw [walk?_append] at hps
  obtain ⟨c, hc, hcb⟩ := Option.bind_eq_some_iff.1 hps
  have hreached := reached_walk? h hc
  unfold walk? at hcb
  by_cases hfolder : fs.isFolder c = true
  · rw [if_pos hfolder, walk?, Option.some.injEq] at hcb
    unfold Place.step at hcb
    split_ifs at hcb
    · rw [← hcb, hfolder] at hb
      cases hb
    · rw [← hcb, (reached_up hfolder hreached).2] at hb
      cases hb
    · rw [hc, ← hcb, List.dropLast_concat]
  · rw [if_neg hfolder] at hcb
    cases hcb

end Walk

/-! ### Folders of paths -/

section Folder

variable {fs : Files} {a : Place} {p q base : Text}

/-- The parts of all paths that go on behind `head` and a `/` begin with these. -/
def leading (head : Text) : List Text :=
  if Path.isAbsolute (head ++ [.char '/']) then ['/'] :: head.split '/' else head.split '/'

theorem parts_append (head rest : Text) :
    Place.parts (head ++ .char '/' :: rest) = leading head ++ rest.split '/' := by
  have habsolute : Path.isAbsolute (head ++ .char '/' :: rest) = Path.isAbsolute (head ++ [.char '/']) := by
    cases head <;> rfl
  unfold Place.parts leading
  rw [Text.split_append, habsolute]
  split_ifs <;> rfl

theorem split_replicate (k : Nat) (t : Text) :
    Text.split '/' (t ++ List.replicate k (.char '/')) = Text.split '/' t ++ List.replicate k [] := by
  induction k with
  | zero => rw [List.replicate_zero, List.replicate_zero, List.append_nil, List.append_nil]
  | succ k ih =>
    rw [List.replicate_succ', ← List.append_assoc, Text.split_append, ih, List.replicate_succ', List.append_assoc]
    rfl

theorem exists_chop (t : Text) : ∃ k, t = Path.chop t ++ List.replicate k (.char '/') := by
  have hslashes : ∃ k, t.reverse.takeWhile (· = .char '/') = List.replicate k (.char '/') :=
    ⟨_, List.eq_replicate_of_mem fun c hc => by simpa using List.mem_takeWhile_imp hc⟩
  obtain ⟨k, hk⟩ := hslashes
  refine ⟨k, ?_⟩
  calc t = (t.reverse.takeWhile (· = .char '/') ++ t.reverse.dropWhile (· = .char '/')).reverse := by
        rw [List.takeWhile_append_dropWhile, List.reverse_reverse]
    _ = Path.chop t ++ List.replicate k (.char '/') := by
        rw [List.reverse_append, hk, List.reverse_replicate]
        rfl

theorem chop_eq_nil_iff (t : Text) : Path.chop t = [] ↔ t.all (· = .char '/') = true := by
  unfold Path.chop
  rw [List.reverse_eq_nil_iff, List.dropWhile_eq_nil_iff, List.all_eq_true]
  exact forall_congr' fun c => by rw [List.mem_reverse]

theorem last?_chop (t : Text) : (Path.chop t).last? ≠ some (.char '/') := by
  unfold Text.last? Path.chop
  rw [List.getLast?_reverse]
  intro h
  have := List.head?_dropWhile_not (p := fun c : CodePoint => decide (c = '/')) (l := t.reverse)
  rw [h] at this
  simp at this

theorem leading_append_replicate (h : base ≠ []) (k : Nat) :
    leading (base ++ List.replicate k (.char '/')) = leading base ++ List.replicate k [] := by
  obtain ⟨c, base, rfl⟩ := List.exists_cons_of_ne_nil h
  have habsolute : Path.isAbsolute (c :: base ++ List.replicate k (.char '/') ++ [.char '/']) =
      Path.isAbsolute (c :: base ++ [.char '/']) := rfl
  unfold leading
  rw [habsolute, split_replicate]
  split_ifs <;> rfl

/-- Slashes at the end of a folder do not matter. -/
theorem walk?_parts_append {head : Text} {k : Nat} (hfolder : fs.walk? [] (leading head) = some a)
    (hleading : leading head = leading base ++ List.replicate k []) (q : Text) :
    fs.walk? [] (Place.parts (base ++ .char '/' :: q)) = fs.walk? a (q.split '/') := by
  have hskip : ∀ b, fs.walk? b (q.split '/') = fs.walk? b (List.replicate k [] ++ q.split '/') :=
    fun b => (walk?_replicate_append k (Text.split_ne_nil '/' q)).symm
  calc fs.walk? [] (Place.parts (base ++ .char '/' :: q))
      = (fs.walk? [] (leading base)).bind fun b => fs.walk? b (q.split '/') := by
        rw [parts_append, walk?_append]
    _ = (fs.walk? [] (leading base)).bind fun b => fs.walk? b (List.replicate k [] ++ q.split '/') := by
        simp only [hskip]
    _ = fs.walk? [] (leading head ++ q.split '/') := by
        rw [← walk?_append, ← List.append_assoc, ← hleading]
    _ = fs.walk? a (q.split '/') := by
        rw [walk?_append, hfolder, Option.bind_some]

/-- All that is below the folder of a file is reached by way of the place above it. -/
theorem walk?_append_folder (hp : fs.place? p = some a) (hfile : fs.isFolder a = false)
    (hq : Path.isAbsolute q = false) :
    fs.walk? [] (Place.parts (Path.append (Path.folder p) q)) = fs.walk? a.dropLast (q.split '/') := by
  have hstart : fs.Reached [] := reached_of_all rfl
  have hwalk : fs.walk? [] (Place.parts p) = some a := by
    unfold place? at hp
    split_ifs at hp
    exact hp
  unfold Path.folder
  rw [Path.append_of_relative hq]
  cases hcut : p.cutLast? '/' with
  | none =>
    have hslash := Text.cutLast?_eq_none.1 hcut
    have hrelative : Path.isAbsolute p = false := by
      rw [← Bool.not_eq_true, Path.isAbsolute_iff]
      rintro ⟨rest, rfl⟩
      exact hslash List.mem_cons_self
    have hparts : Place.parts p = [] ++ [p] := by
      unfold Place.parts
      rw [hrelative, Text.split_of_not_mem hslash]
      rfl
    rw [hparts] at hwalk
    have hfolder := walk?_dropLast hstart hwalk hfile
    have hbelow : Path.below [] q = q := if_pos (Or.inl rfl)
    have hplace : Place.parts q = q.split '/' := by
      unfold Place.parts
      rw [hq]
      rfl
    rw [hbelow, hplace, ← Option.some.inj hfolder]
  | some cut =>
    obtain ⟨head, tail⟩ := cut
    obtain ⟨rfl, htail⟩ := Text.cutLast?_eq_some hcut
    rw [parts_append, Text.split_of_not_mem htail] at hwalk
    have hfolder := walk?_dropLast hstart hwalk hfile
    dsimp only
    split_ifs with hall
    · have hlast : (head ++ [CodePoint.char '/']).last? = some (.char '/') := List.getLast?_concat
      have hbelow : Path.below (head ++ [.char '/']) q = head ++ .char '/' :: q := by
        unfold Path.below
        rw [if_pos (Or.inr hlast), List.append_assoc]
        rfl
      rw [hbelow]
      exact walk?_parts_append (k := 0) hfolder (List.append_nil _).symm q
    · have hne : Path.chop head ≠ [] := fun h => hall ((chop_eq_nil_iff head).1 h)
      have hbelow : Path.below (Path.chop head) q = Path.chop head ++ .char '/' :: q :=
        if_neg (not_or.2 ⟨hne, last?_chop head⟩)
      obtain ⟨k, hk⟩ := exists_chop head
      rw [hbelow]
      refine walk?_parts_append (k := k) hfolder ?_ q
      conv_lhs => rw [hk]
      exact leading_append_replicate hne k

theorem Sound.file?_eq (h : fs.Sound) (p : Text) : fs.file? p = (fs.walk? [] (Place.parts p)).bind fs.fileAt? := by
  unfold file? place?
  split_ifs with hp
  · subst hp
    exact (h.fileAt?_eq_none (isFolder_of_all rfl)).symm
  · rfl

theorem Sound.isFolder_eq_false (h : fs.Sound) {t : Text} (hp : fs.file? p = some (a, t)) :
    fs.place? p = some a ∧ fs.isFolder a = false := by
  exact ⟨(file?_eq_some hp).1, h _ (mem_of_file? hp)⟩

/-- **Paths in a file lead to the same files, however the path of the file is written.** -/
theorem Sound.file?_resolve (h : fs.Sound) {p p' : Text} {t t' : Text} (hp : fs.file? p = some (a, t))
    (hp' : fs.file? p' = some (a, t')) (home : Text) (configFolder : Option Text) (q : Text) :
    fs.file? (Path.resolve home configFolder p q) = fs.file? (Path.resolve home configFolder p' q) := by
  obtain ⟨hplace, hfile⟩ := h.isFolder_eq_false hp
  obtain ⟨hplace', -⟩ := h.isFolder_eq_false hp'
  have hfolder : ∀ rest, fs.file? (Path.append (Path.folder p) rest) = fs.file? (Path.append (Path.folder p') rest) := by
    intro rest
    cases hrest : Path.isAbsolute rest with
    | true => rw [Path.append_of_isAbsolute hrest, Path.append_of_isAbsolute hrest]
    | false =>
      rw [h.file?_eq, h.file?_eq, walk?_append_folder hplace hfile hrest, walk?_append_folder hplace' hfile hrest]
  unfold Path.resolve
  split_ifs
  · rfl
  · rfl
  · split
    · rfl
    · exact hfolder _

end Folder

end Files

end RequestRules
