import RequestRules.Text

/-!
# Numerals

The decimal writing of natural numbers and integers.  A numeral of more than `Numeral.limit` digits is refused wherever
a whole number is read, and where a setting is written.
-/

namespace RequestRules

namespace Numeral

def value (digits : Text) : Nat := digits.foldl (fun n c => 10 * n + (c.toNat - 0x30)) 0

def ofNat (n : Nat) : Text := .ofChars (Nat.toDigits 10 n)

def ofInt : Int → Text
  | .ofNat n => ofNat n
  | .negSucc n => '-' :: ofNat (n + 1)

/-- The digits of `n`, with zeros in front up to `width`. -/
def padded (width n : Nat) : Text :=
  let ds := ofNat n
  List.replicate (width - ds.length) (.char '0') ++ ds

def limit : Nat := 4300

def isInLimit (n : Int) : Bool := n.natAbs < Nat.pow 10 limit

def overLimit (detail : Text) : Text :=
  .of "Exceeds the limit (4300 digits) for integer string conversion" ++ detail ++
    .of "; use sys.set_int_max_str_digits() to increase the limit"

def tooLong (digits : Nat) : Text := overLimit (.of ": value has " ++ ofNat digits ++ .of " digits")

theorem value_ofChars (ds : List Char) : value (.ofChars ds) = Nat.ofDigitChars 10 ds 0 := List.foldl_map

theorem value_ofNat (n : Nat) : value (ofNat n) = n := (value_ofChars _).trans Nat.ofDigitChars_ten_toDigits

theorem isDigit_of_mem_ofNat {c : CodePoint} {n : Nat} (h : c ∈ ofNat n) : c.isDigit = true := by
  obtain ⟨d, hd, rfl⟩ := List.mem_map.1 h
  exact Nat.isDigit_of_mem_toDigits (by decide) (by decide) hd

theorem ofNat_ne_nil (n : Nat) : ofNat n ≠ [] := fun h => Nat.toDigits_ne_nil (List.map_eq_nil_iff.1 h)

end Numeral

end RequestRules
