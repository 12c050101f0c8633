/-!
# Code points

A code point is a character or a surrogate.  A high surrogate and a low one behind it stand for one character above
`U+FFFF` where a text is written in units of 16 bits, but both are code points by themselves, in any place of a text.
-/

namespace RequestRules

inductive CodePoint
  | char (c : Char)
  /-- the code point `n` places behind `U+D800` -/
  | surrogate (n : Fin 0x800)
  deriving DecidableEq, Repr

namespace CodePoint

instance : Coe Char CodePoint := ⟨char⟩

def toNat : CodePoint → Nat
  | char c => c.toNat
  | surrogate n => 0xd800 + n

@[simp] theorem toNat_char (c : Char) : (char c).toNat = c.toNat := rfl

@[simp] theorem toNat_surrogate (n : Fin 0x800) : (surrogate n).toNat = 0xd800 + n := rfl

instance : LE CodePoint := ⟨fun a b => a.toNat ≤ b.toNat⟩

instance (a b : CodePoint) : Decidable (a ≤ b) := inferInstanceAs (Decidable (a.toNat ≤ b.toNat))

/-- The code point of a number; numbers from `0x110000` on have none, and count as zero. -/
def ofNat (n : Nat) : CodePoint :=
  if h : 0xd800 ≤ n ∧ n < 0xe000 then surrogate ⟨n - 0xd800, by omega⟩ else char (Char.ofNat n)

theorem ofNat_toNat (c : CodePoint) : ofNat c.toNat = c := by
  cases c with
  | char c =>
    have hvalid : c.toNat < 0xd800 ∨ 0xdfff < c.toNat ∧ c.toNat < 0x110000 := c.valid
    have hrange : ¬ (0xd800 ≤ c.toNat ∧ c.toNat < 0xe000) := by omega
    rw [toNat_char, ofNat, dif_neg hrange, Char.ofNat_toNat]
  | surrogate n =>
    have hrange : 0xd800 ≤ 0xd800 + (n : Nat) ∧ 0xd800 + (n : Nat) < 0xe000 := by omega
    rw [toNat_surrogate, ofNat, dif_pos hrange]
    simp

theorem toNat_lt (c : CodePoint) : c.toNat < 0x110000 := by
  cases c with
  | char c =>
    have hvalid : c.toNat < 0xd800 ∨ 0xdfff < c.toNat ∧ c.toNat < 0x110000 := c.valid
    rw [toNat_char]
    omega
  | surrogate n =>
    rw [toNat_surrogate]
    omega

/-! ## Classes -/

def isSurrogate : CodePoint → Bool
  | char _ => false
  | surrogate _ => true

def isHigh (c : CodePoint) : Bool := 0xd800 ≤ c.toNat && c.toNat < 0xdc00

def isLow (c : CodePoint) : Bool := 0xdc00 ≤ c.toNat && c.toNat < 0xe000

/-- The character that a high surrogate and a low one stand for. -/
def join (high low : CodePoint) : CodePoint :=
  char (Char.ofNat (0x10000 + (high.toNat - 0xd800) * 0x400 + (low.toNat - 0xdc00)))

/-- A class of characters has no surrogates. -/
def isOf (p : Char → Bool) : CodePoint → Bool
  | char c => p c
  | surrogate _ => false

def isDigit : CodePoint → Bool := isOf Char.isDigit
def isUpper : CodePoint → Bool := isOf Char.isUpper
def isLower : CodePoint → Bool := isOf Char.isLower
def isAlphanum : CodePoint → Bool := isOf Char.isAlphanum

@[simp] theorem isDigit_char (c : Char) : (char c).isDigit = c.isDigit := rfl

theorem isDigit_iff_toNat {c : CodePoint} : c.isDigit = true ↔ 48 ≤ c.toNat ∧ c.toNat ≤ 57 := by
  cases c with
  | char c => exact Char.isDigit_iff_toNat
  | surrogate n =>
    rw [toNat_surrogate]
    exact iff_of_false Bool.false_ne_true fun h => by omega

theorem isSurrogate_of_isDigit {c : CodePoint} (h : c.isDigit = true) : c.isSurrogate = false := by
  cases c with
  | char c => rfl
  | surrogate n => exact absurd h Bool.false_ne_true

/-! ## Case -/

/-- A surrogate has no case. -/
def mapChar (f : Char → Char) : CodePoint → CodePoint
  | char c => char (f c)
  | surrogate n => surrogate n

def toLower : CodePoint → CodePoint := mapChar Char.toLower
def toUpper : CodePoint → CodePoint := mapChar Char.toUpper

end CodePoint

end RequestRules
