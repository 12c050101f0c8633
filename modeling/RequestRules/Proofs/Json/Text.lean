import Mathlib.Data.List.Chain
import Mathlib.Data.Nat.Digits.Defs
import RequestRules.Json.Reader

/-!
# Quoted texts come back

A character above `U+FFFF` is escaped as two surrogates, and so is a high surrogate with a low one behind it, so nothing
tells the one from the other.  `Text.joined` puts such pairs together, and that is what is read of what is written of a
text between double quotes (`Json.readText?_quote`).  A text without such pairs (`Text.Unpaired`) comes back as it is.
-/

namespace RequestRules

/-! ## Pairs of surrogates -/

namespace CodePoint

theorem isHigh_iff {c : CodePoint} : c.isHigh = true ↔ 0xd800 ≤ c.toNat ∧ c.toNat < 0xdc00 := by simp [isHigh]

theorem isLow_iff {c : CodePoint} : c.isLow = true ↔ 0xdc00 ≤ c.toNat ∧ c.toNat < 0xe000 := by simp [isLow]

theorem isHigh_eq_false {c : CodePoint} (h : c.toNat < 0xd800 ∨ 0xdc00 ≤ c.toNat) : c.isHigh = false := by
  rw [Bool.eq_false_iff, ne_eq, isHigh_iff]
  omega

theorem isHigh_char (c : Char) : (char c).isHigh = false := by
  have hvalid : c.toNat < 0xd800 ∨ 0xdfff < c.toNat ∧ c.toNat < 0x110000 := c.valid
  refine isHigh_eq_false ?_
  rw [toNat_char]
  omega

theorem isLow_char (c : Char) : (char c).isLow = false := by
  have hvalid : c.toNat < 0xd800 ∨ 0xdfff < c.toNat ∧ c.toNat < 0x110000 := c.valid
  rw [Bool.eq_false_iff, ne_eq, isLow_iff, toNat_char]
  omega

theorem isLow_join (high low : CodePoint) : (join high low).isLow = false := by
  unfold join
  exact isLow_char _

theorem isLow_of_isHigh {c : CodePoint} (h : c.isHigh = true) : c.isLow = false := by
  have hhigh := isHigh_iff.1 h
  rw [Bool.eq_false_iff, ne_eq, isLow_iff]
  omega

theorem toNat_ofNat {n : Nat} (h : n < 0x110000) : (ofNat n).toNat = n := by
  unfold ofNat
  split
  · next hn =>
    rw [toNat_surrogate]
    exact Nat.add_sub_cancel' hn.1
  · next hn =>
    have hvalid : n.isValidChar := by
      unfold Nat.isValidChar
      omega
    rw [toNat_char, Char.ofNat, dif_pos hvalid]
    rfl

/-- A character above `U+FFFF` is what its two halves stand for. -/
theorem join_eq {high low c : CodePoint} (hc : 0x10000 + (high.toNat - 0xd800) * 0x400 + (low.toNat - 0xdc00) = c.toNat) :
    join high low = c := by
  have habove : ¬ (0xd800 ≤ c.toNat ∧ c.toNat < 0xe000) := by omega
  have hself := ofNat_toNat c
  rw [ofNat, dif_neg habove] at hself
  rw [join, hc, hself]

theorem toNat_join {high low : CodePoint} (hhigh : high.isHigh = true) (hlow : low.isLow = true) :
    (join high low).toNat = 0x10000 + (high.toNat - 0xd800) * 0x400 + (low.toNat - 0xdc00) := by
  have hhigh := isHigh_iff.1 hhigh
  have hlow := isLow_iff.1 hlow
  have hself := toNat_ofNat (n := 0x10000 + (high.toNat - 0xd800) * 0x400 + (low.toNat - 0xdc00)) (by omega)
  rw [join_eq hself.symm, hself]

end CodePoint

namespace Text

/-- The text with each pair of a high surrogate and a low one behind it as the character that both stand for. -/
def joined (t : Text) : Text := t.foldr Json.attach []

/-- No high surrogate stands directly before a low one. -/
def Unpaired (t : Text) : Prop := t.IsChain fun c d => ¬ (c.isHigh = true ∧ d.isLow = true)

instance : DecidablePred Unpaired := fun t =>
  inferInstanceAs (Decidable (t.IsChain fun c d => ¬ (c.isHigh = true ∧ d.isLow = true)))

theorem joined_cons (c : CodePoint) (t : Text) : joined (c :: t) = Json.attach c (joined t) := rfl

theorem attach_of_not_pair {c : CodePoint} {t : Text} (h : c.isHigh = true → t.head?.any CodePoint.isLow = false) :
    Json.attach c t = c :: t := by
  cases t with
  | nil => rfl
  | cons d t =>
    refine if_neg fun hpair => ?_
    have hlow := h hpair.1
    simp [hpair.2] at hlow

theorem attach_of_not_high {c : CodePoint} (h : c.isHigh = false) (t : Text) : Json.attach c t = c :: t :=
  attach_of_not_pair fun hhigh => absurd (h.symm.trans hhigh) Bool.false_ne_true

/-- A low surrogate at the front stays there, and none comes there. -/
theorem isLow_head?_joined (t : Text) : (joined t).head?.any CodePoint.isLow = t.head?.any CodePoint.isLow := by
  cases t with
  | nil => rfl
  | cons c t =>
    rw [joined_cons]
    unfold Json.attach
    split
    · rfl
    · split
      · next hpair =>
        rw [List.head?_cons, List.head?_cons, Option.any_some, Option.any_some, CodePoint.isLow_join,
          CodePoint.isLow_of_isHigh hpair.1]
      · rfl

/-- **Without pairs nothing is joined.** -/
theorem Unpaired.joined_eq {t : Text} (h : t.Unpaired) : t.joined = t := by
  induction t with
  | nil => rfl
  | cons c t ih =>
    obtain ⟨hhead, htail⟩ := List.isChain_cons.1 h
    rw [joined_cons, ih htail]
    refine attach_of_not_pair fun hc => ?_
    cases t with
    | nil => rfl
    | cons d t => simpa [hc] using hhead d rfl

end Text

/-! ## Hexadecimal digits -/

theorem hexPadded_one {n : Nat} (h : n < 16) : hexPadded 1 n = [hexDigit n] := by
  unfold hexPadded hexDigit
  rw [Nat.toDigits_of_lt_base h]
  rfl

/-- One digit more is the last one of a padded number. -/
theorem hexPadded_succ {w : Nat} (hw : 0 < w) (n : Nat) :
    hexPadded (w + 1) n = hexPadded w (n / 16) ++ [hexDigit (n % 16)] := by
  unfold hexPadded hexDigit
  dsimp only
  rcases Nat.lt_or_ge n 16 with h | h
  · -- a zero more, and a zero for the digits in front
    have hzeros : List.replicate w (CodePoint.char '0') = List.replicate (w - 1) (.char '0') ++ [.char '0'] := by
      rw [← List.replicate_succ', Nat.sub_add_cancel hw]
    rw [Nat.div_eq_of_lt h, Nat.mod_eq_of_lt h, Nat.toDigits_of_lt_base h, Nat.toDigits_zero]
    exact congrArg (· ++ [.char n.digitChar]) hzeros
  · have hdigits : Text.ofChars (Nat.toDigits 16 n) =
        Text.ofChars (Nat.toDigits 16 (n / 16)) ++ [.char (n % 16).digitChar] := by
      rw [Nat.toDigits_of_base_le (by decide) h]
      exact List.map_append
    rw [hdigits, List.length_append, List.length_singleton, Nat.add_sub_add_right, List.append_assoc]

namespace Json

theorem hexValue?_hexDigit : ∀ n < 16, hexValue? (hexDigit n) = some n := by decide

theorem unit_eq {n : Nat} (h : n < 0x10000) : unit n =
    [.char '\\', .char 'u', hexDigit (n / 16 / 16 / 16), hexDigit (n / 16 / 16 % 16), hexDigit (n / 16 % 16),
      hexDigit (n % 16)] := by
  unfold unit
  rw [hexPadded_succ (by decide), hexPadded_succ (by decide), hexPadded_succ (by decide), hexPadded_one (by omega)]
  rfl

theorem unit?_hexDigits {n : Nat} (h : n < 0x10000) :
    unit? (hexDigit (n / 16 / 16 / 16)) (hexDigit (n / 16 / 16 % 16)) (hexDigit (n / 16 % 16)) (hexDigit (n % 16)) =
      some (.ofNat n) := by
  unfold unit?
  rw [hexValue?_hexDigit _ (by omega), hexValue?_hexDigit _ (by omega), hexValue?_hexDigit _ (by omega),
    hexValue?_hexDigit _ (by omega)]
  show some (CodePoint.ofNat _) = some (CodePoint.ofNat n)
  congr 2
  omega

/-! ## Escapes -/

theorem readText?_letter {c x : CodePoint} (hu : c ≠ 'u') (hx : letter? c = some x) (t : Text) :
    readText? ('\\' :: c :: t) = (readText? t).map fun (s, r) => (x :: s, r) := by
  rw [readText?, hx]
  · cases readText? t <;> rfl
  · exact fun _ _ _ _ _ hc _ => hu hc

theorem readText?_plain {c : CodePoint} (hquote : c ≠ '"') (hescape : c ≠ '\\') (hc : 0x20 ≤ c.toNat) (t : Text) :
    readText? (c :: t) = (readText? t).map fun (s, r) => (c :: s, r) := by
  rw [readText?, if_neg (Nat.not_lt.2 hc)]
  · cases readText? t <;> rfl
  · exact hquote
  · exact fun _ _ _ _ _ h _ => hescape h
  · exact fun _ _ h _ => hescape h

/-- A code point is read from its unit, and put before what is read behind it. -/
theorem readText?_unit {n : Nat} (h : n < 0x10000) (t : Text) : readText? (unit n ++ t) = (readText? t).map fun (s, r) =>
    (if (Text.of "\\u").isPrefixOf t then attach (.ofNat n) s else .ofNat n :: s, r) := by
  rw [unit_eq h]
  simp only [List.cons_append, List.nil_append]
  rw [readText?, unit?_hexDigits h, Option.bind_eq_bind, Option.bind_some]
  cases readText? t <;> rfl

theorem isPrefixOf_unit {n : Nat} (h : n < 0x10000) (t : Text) : (Text.of "\\u").isPrefixOf (unit n ++ t) = true := by
  rw [unit_eq h]
  rfl

/-- What is not ASCII is escaped by its number. -/
theorem escape_of_le {c : CodePoint} (h : 0x80 ≤ c.toNat) : escape c = if c.toNat < 0x10000 then unit c.toNat
    else unit (0xd800 + (c.toNat - 0x10000) / 0x400) ++ unit (0xdc00 + (c.toNat - 0x10000) % 0x400) := by
  have hne : ∀ d : Char, d.toNat < 0x80 → c ≠ d := by
    rintro d hd rfl
    exact absurd h (Nat.not_le.2 hd)
  unfold escape
  dsimp only
  rw [if_neg (hne _ (by decide)), if_neg (hne _ (by decide)), if_neg (hne _ (by decide)), if_neg (hne _ (by decide)),
    if_neg (hne _ (by decide)), if_neg (hne _ (by decide)), if_neg (hne _ (by decide)), if_neg (by omega)]

theorem escape_of_isLow {c : CodePoint} (h : c.isLow = true) : escape c = unit c.toNat := by
  obtain ⟨hle, hlt⟩ := CodePoint.isLow_iff.1 h
  rw [escape_of_le (by omega), if_pos (by omega)]

theorem escape_of_isHigh {c : CodePoint} (h : c.isHigh = true) : escape c = unit c.toNat := by
  obtain ⟨hle, hlt⟩ := CodePoint.isHigh_iff.1 h
  rw [escape_of_le (by omega), if_pos (by omega)]

/-- A pair of surrogates is escaped like the character that both stand for. -/
theorem escape_join {high low : CodePoint} (hhigh : high.isHigh = true) (hlow : low.isLow = true) :
    escape (high.join low) = escape high ++ escape low := by
  have hjoin := CodePoint.toNat_join hhigh hlow
  obtain ⟨hle, hlt⟩ := CodePoint.isHigh_iff.1 hhigh
  obtain ⟨hle', hlt'⟩ := CodePoint.isLow_iff.1 hlow
  have hfirst : 0xd800 + ((high.join low).toNat - 0x10000) / 0x400 = high.toNat := by omega
  have hsecond : 0xdc00 + ((high.join low).toNat - 0x10000) % 0x400 = low.toNat := by omega
  rw [escape_of_isHigh hhigh, escape_of_isLow hlow, escape_of_le (by omega), if_neg (by omega), hfirst, hsecond]

theorem flatMap_escape_attach (c : CodePoint) (t : Text) : (attach c t).flatMap escape = escape c ++ t.flatMap escape := by
  cases t with
  | nil => rfl
  | cons d t =>
    rw [attach]
    split
    · next hpair => rw [List.flatMap_cons, List.flatMap_cons, escape_join hpair.1 hpair.2, List.append_assoc]
    · rfl

/-- **A text is written like the joined text.** -/
theorem quote_joined (t : Text) : quote t.joined = quote t := by
  have hescaped : t.joined.flatMap escape = t.flatMap escape := by
    induction t with
    | nil => rfl
    | cons c t ih => rw [Text.joined_cons, flatMap_escape_attach, ih, List.flatMap_cons]
  rw [quote, hescaped, quote]

/-- The two halves of a character above `U+FFFF` are joined again. -/
theorem readText?_halves {c : CodePoint} {hi lo : Nat} (hhi : 0xd800 ≤ hi ∧ hi < 0xdc00) (hlo : 0xdc00 ≤ lo ∧ lo < 0xe000)
    (hc : 0x10000 + (hi - 0xd800) * 0x400 + (lo - 0xdc00) = c.toNat) {t s r : Text} (h : readText? t = some (s, r)) :
    readText? (unit hi ++ unit lo ++ t) = some (c :: s, r) := by
  have hhigh : (CodePoint.ofNat hi).toNat = hi := CodePoint.toNat_ofNat (by omega)
  have hlow : (CodePoint.ofNat lo).toNat = lo := CodePoint.toNat_ofNat (by omega)
  have hjoin : (CodePoint.ofNat hi).join (.ofNat lo) = c := CodePoint.join_eq (by rw [hhigh, hlow, hc])
  have hpair : (CodePoint.ofNat hi).isHigh = true ∧ (CodePoint.ofNat lo).isLow = true := by
    rw [CodePoint.isHigh_iff, CodePoint.isLow_iff, hhigh, hlow]
    exact ⟨hhi, hlo⟩
  have hcons := Text.attach_of_not_high (CodePoint.isHigh_eq_false (.inr (hlow.symm ▸ hlo.1))) s
  rw [List.append_assoc, readText?_unit (by omega), readText?_unit (by omega), h, Option.map_some, Option.map_some]
  dsimp only
  rw [hcons, ite_self, if_pos (isPrefixOf_unit (by omega) _), attach, if_pos hpair, hjoin]

/-- A code point is read in front of a text, where no unit is needed for that text to begin with a low surrogate. -/
theorem readText?_escape (c : CodePoint) {t s r : Text} (h : readText? t = some (s, r))
    (hunit : s.head?.any CodePoint.isLow = true → (Text.of "\\u").isPrefixOf t = true) :
    readText? (escape c ++ t) = some (attach c s, r) := by
  have hlt := c.toNat_lt
  have hself : c.toNat < 0xd800 ∨ 0xdc00 ≤ c.toNat → attach c s = c :: s := fun hc =>
    Text.attach_of_not_high (CodePoint.isHigh_eq_false hc) s
  unfold escape
  dsimp only
  split_ifs with h1 h2 h3 h4 h5 h6 h7 hprintable hsmall
  iterate 7
    · rw [hself (.inl (by subst c; decide))]
      subst c
      exact (readText?_letter (by decide) rfl t).trans (by rw [h]; rfl)
  · rw [hself (.inl (by omega)), List.cons_append, List.nil_append, readText?_plain h1 h2 hprintable.1, h, Option.map_some]
  · rw [readText?_unit hsmall, h, c.ofNat_toNat, Option.map_some]
    dsimp only
    split
    · rfl
    · next hprefix =>
      have hlow : s.head?.any CodePoint.isLow = false := Bool.eq_false_iff.2 fun hlow => hprefix (hunit hlow)
      rw [Text.attach_of_not_pair fun _ => hlow]
  · rw [hself (.inr (by omega))]
    exact readText?_halves (by omega) (by omega) (by omega) h

/-- **What is read of a written text**: the text, with its pairs of surrogates joined. -/
theorem readText?_quote (t r : Text) : readText? (t.flatMap escape ++ .char '"' :: r) = some (t.joined, r) := by
  induction t with
  | nil => rfl
  | cons c t ih =>
    rw [List.flatMap_cons, List.append_assoc]
    refine readText?_escape c ih fun hjoined => ?_
    have hlow := (Text.isLow_head?_joined t).symm.trans hjoined
    cases t with
    | nil => cases hlow
    | cons d t =>
      have hd : d.isLow = true := by simpa using hlow
      rw [List.flatMap_cons, escape_of_isLow hd, List.append_assoc]
      exact isPrefixOf_unit ((CodePoint.isLow_iff.1 hd).2.trans (by decide)) _

end Json

end RequestRules
