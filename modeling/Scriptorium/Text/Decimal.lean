/-! Decimal numerals, read as natural numbers and as words of 32 bits. Reading the
numeral that a number is written with gives the number back. A numeral with a power of ten is
only asked whether it is too great for a double. -/
namespace Scriptorium.Text

/-- One or more ASCII digits; leading zeros are allowed. -/
def natural? (digits : List Char) : Option Nat :=
  if !digits.isEmpty && digits.all Char.isDigit then some (Nat.ofDigitChars 10 digits 0) else none

def word? (n : Nat) : Option UInt32 := if n < UInt32.size then some (UInt32.ofNat n) else none

/-- A numeral as a person may type it: an optional plus sign and leading zeros. -/
def looseWord? (text : String) : Option UInt32 :=
  (natural? (match text.toList with
    | '+' :: rest => rest
    | digits => digits)).bind word?

/-- A numeral as it is written out: no sign, and no leading zero but in `0` itself. -/
def strictWord? (text : String) : Option UInt32 :=
  match text.toList with
  | '0' :: _ :: _ => none
  | digits => (natural? digits).bind word?

/-- From here on a number is nearer to the power of two after the greatest double. -/
def doubleLimit : Nat := (Nat.pow 2 54 - 1) * Nat.pow 2 970

/-- Whether digits times a power of ten reach the limit of doubles. Only a number of 309 digits
before its point has to be computed. -/
def exceedsDouble (digits : List Char) (power : Int) : Bool :=
  let digits := digits.dropWhile (· == '0')
  let width := digits.length + power
  !digits.isEmpty && (309 < width || (width == 309 &&
    doubleLimit * Nat.pow 10 (-power).toNat ≤
      Nat.ofDigitChars 10 digits 0 * Nat.pow 10 power.toNat))

theorem word?_toNat (n : UInt32) : word? n.toNat = some n := by
  have inside : n.toNat < UInt32.size := n.toNat_lt
  simp [word?, inside]

theorem natural?_toDigits (n : Nat) : natural? (Nat.toDigits 10 n) = some n := by
  have digits : (Nat.toDigits 10 n).all Char.isDigit = true :=
    List.all_eq_true.mpr fun c member => Nat.isDigit_of_mem_toDigits (by decide) (by decide) member
  have some_digit : (Nat.toDigits 10 n).isEmpty = false := by
    simp
  simp [natural?, digits, some_digit, Nat.ofDigitChars_toDigits]

end Scriptorium.Text
