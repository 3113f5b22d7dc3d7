import OpenGsn.Rounding
import OpenGsn.Solidity.Base

/-! What the packages share: the helpers of `Utils.ts`, and the numbers of JavaScript. -/

namespace OpenGsn

abbrev AddressText := List Char

def toLowerCase (text : AddressText) : AddressText := text.map Char.toLower

def isSameAddress (address1 address2 : AddressText) : Bool := toLowerCase address1 = toLowerCase address2

/-- `BN.toNumber` -/
def toNumber (n : ℕ) : Except String ℕ :=
  if n < 2 ^ 53 then .ok n else .error "Number can only safely store up to 53 bits"

@[simp] theorem toNumber_ok (n value : ℕ) : toNumber n = .ok value ↔ n < 2 ^ 53 ∧ n = value := by
  unfold toNumber
  split <;> simp_all

def toDouble (x : ℚ) : ℚ := Rounding.nearest 53 x

/-- Sums, differences and products of integers are integers, also when they are rounded. -/
def number (n : ℤ) : ℤ := ⌈toDouble n⌉

theorem number_small (n : ℤ) (low : -2 ^ 53 ≤ n) (high : n ≤ 2 ^ 53) : number n = n := by
  have small : |(n : ℚ)| ≤ 2 ^ 53 := by
    rw [abs_le]
    exact_mod_cast And.intro low high
  rw [number, toDouble, Rounding.nearest_intCast 53 (by decide) n small, Int.ceil_intCast]

theorem le_number (bound n : ℤ) (small : bound ≤ 2 ^ 53) (positive : 0 < n) (below : bound ≤ n) : bound ≤ number n := by
  have rounded := Rounding.le_nearest 53 (by decide) n bound (by exact_mod_cast small) (by exact_mod_cast positive)
    (by exact_mod_cast below)
  exact_mod_cast rounded.trans (Int.le_ceil _)

/-- The number that `String` writes, with the fewest digits that are rounded to `n`. -/
def shortest (n : ℤ) : ℤ :=
  (((List.range 22).reverse.map fun zeros => Rounding.toEven (n / 10 ^ zeros) * 10 ^ zeros).find? fun m =>
    number m = n).getD n

/-- `toBN` of a number that is not negative. From `1e+21` on it is written with an exponent. -/
def numberToBN (n : ℤ) : Except String ℕ :=
  if n < 10 ^ 21 then .ok (shortest n).toNat else .error "invalid number value"

end OpenGsn
