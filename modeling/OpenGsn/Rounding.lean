import Mathlib.Algebra.Order.Floor.Ring
import Mathlib.Data.Int.Log
import Mathlib.Data.Rat.Floor
import Mathlib.Tactic.FieldSimp
import Mathlib.Tactic.Linarith
import Mathlib.Tactic.Positivity
import Mathlib.Tactic.Ring

/-! Numbers with so many binary digits, and rounding to the nearest of them. Exponents have no bounds. -/

namespace Rounding

/-- To the nearest integer, and between two of them to the even one. -/
def toEven (x : ℚ) : ℤ :=
  if Int.fract x < 1 / 2 then ⌊x⌋
  else if 1 / 2 < Int.fract x then ⌊x⌋ + 1
  else if Even ⌊x⌋ then ⌊x⌋
  else ⌊x⌋ + 1

theorem toEven_intCast (n : ℤ) : toEven n = n := by
  rw [toEven, if_pos (by rw [Int.fract_intCast]; norm_num), Int.floor_intCast]

theorem floor_le_toEven (x : ℚ) : ⌊x⌋ ≤ toEven x := by
  unfold toEven
  split_ifs <;> omega

theorem toEven_le_floor_add_one (x : ℚ) : toEven x ≤ ⌊x⌋ + 1 := by
  unfold toEven
  split_ifs <;> omega

theorem le_toEven (x : ℚ) (n : ℤ) (below : n ≤ x) : n ≤ toEven x :=
  (Int.le_floor.mpr below).trans (floor_le_toEven x)

theorem toEven_le (x : ℚ) (n : ℤ) (above : x ≤ n) : toEven x ≤ n := by
  rcases above.eq_or_lt with same | less
  · rw [same, toEven_intCast]
  · have floor : ⌊x⌋ < n := Int.floor_lt.mpr less
    have next := toEven_le_floor_add_one x
    omega

/-- More than half of the way to the next integer. -/
theorem lt_toEven (x : ℚ) (n : ℤ) (beyond : n + 1 / 2 < x) : n < toEven x := by
  have below : n ≤ ⌊x⌋ := Int.le_floor.mpr (by linarith)
  rcases below.eq_or_lt with same | less
  · have most : 1 / 2 < Int.fract x := by
      rw [Int.fract, ← same]
      linarith
    rw [toEven, if_neg (not_lt.mpr most.le), if_pos most, ← same]
    omega
  · exact less.trans_le (floor_le_toEven x)

variable (precision : ℕ)

/-- What the last digit of a number counts. -/
def unit (x : ℚ) : ℚ := 2 ^ (Int.log 2 |x| + 1 - precision)

def nearest (x : ℚ) : ℚ := toEven (x / unit precision x) * unit precision x

theorem unit_pos (x : ℚ) : 0 < unit precision x := zpow_pos (by norm_num) _

theorem nearest_of_multiple (x : ℚ) (n : ℤ) (multiple : x = n * unit precision x) : nearest precision x = x := by
  have units : x / unit precision x = n := by
    rw [div_eq_iff (unit_pos precision x).ne']
    exact multiple
  rw [nearest, units, toEven_intCast, ← multiple]

theorem multiple_le_nearest (x : ℚ) (n : ℤ) (below : n * unit precision x ≤ x) :
    n * unit precision x ≤ nearest precision x := by
  have units : n ≤ toEven (x / unit precision x) :=
    le_toEven _ n ((le_div_iff₀ (unit_pos precision x)).mpr below)
  exact mul_le_mul_of_nonneg_right (by exact_mod_cast units) (unit_pos precision x).le

theorem nearest_le_multiple (x : ℚ) (n : ℤ) (above : x ≤ n * unit precision x) :
    nearest precision x ≤ n * unit precision x := by
  have units : toEven (x / unit precision x) ≤ n :=
    toEven_le _ n ((div_le_iff₀ (unit_pos precision x)).mpr above)
  exact mul_le_mul_of_nonneg_right (by exact_mod_cast units) (unit_pos precision x).le

theorem multiple_lt_nearest (x : ℚ) (n : ℤ) (beyond : (n + 1 / 2) * unit precision x < x) :
    n * unit precision x < nearest precision x := by
  have units : n < toEven (x / unit precision x) :=
    lt_toEven _ n ((lt_div_iff₀ (unit_pos precision x)).mpr beyond)
  exact mul_lt_mul_of_pos_right (by exact_mod_cast units) (unit_pos precision x)

/-- Where the digits reach behind the point, integers are multiples of the unit. -/
theorem unit_divides (x : ℚ) (small : |x| < 2 ^ precision) (nonzero : x ≠ 0) (n : ℤ) :
    ∃ m : ℤ, (n : ℚ) = m * unit precision x := by
  have log : Int.log 2 |x| < precision := by
    apply (Int.lt_zpow_iff_log_lt (by decide) (abs_pos.mpr nonzero)).mp
    rw [zpow_natCast]
    exact small
  obtain ⟨digits, behind⟩ := Int.eq_ofNat_of_zero_le (show 0 ≤ (precision : ℤ) - (Int.log 2 |x| + 1) by omega)
  refine ⟨n * 2 ^ digits, ?_⟩
  rw [unit, show Int.log 2 |x| + 1 - (precision : ℤ) = -(digits : ℤ) by omega, zpow_neg, zpow_natCast]
  push_cast
  field_simp

variable (wide : 0 < precision)

include wide

/-- The power of two that a number begins with has one digit. -/
theorem leading_power (x : ℚ) : (2 : ℚ) ^ Int.log 2 |x| = (2 ^ (precision - 1) : ℤ) * unit precision x := by
  rw [unit]
  push_cast
  rw [← zpow_natCast, ← zpow_add₀ (by norm_num)]
  congr 1
  omega

theorem nearest_power (x : ℚ) (power : |x| = 2 ^ Int.log 2 |x|) : nearest precision x = x := by
  rw [leading_power precision wide] at power
  rcases abs_choice x with same | opposite
  · rw [same] at power
    exact nearest_of_multiple precision x _ power
  · apply nearest_of_multiple precision x (-2 ^ (precision - 1))
    rw [opposite] at power
    push_cast at power ⊢
    linarith

theorem nearest_intCast (n : ℤ) (small : |(n : ℚ)| ≤ 2 ^ precision) : nearest precision n = n := by
  rcases eq_or_ne n 0 with rfl | nonzero
  · rw [Int.cast_zero]
    exact nearest_of_multiple precision 0 0 (by simp)
  · rcases small.eq_or_lt with power | less
    · apply nearest_power precision wide
      have log : Int.log 2 ((2 : ℚ) ^ (precision : ℤ)) = precision := Int.log_zpow (b := 2) (by decide) precision
      rw [power, ← zpow_natCast, log]
    · obtain ⟨m, multiple⟩ := unit_divides precision n less (by exact_mod_cast nonzero) n
      exact nearest_of_multiple precision _ m multiple

/-- Rounding does not fall below a number that has few enough digits. -/
theorem le_nearest (x : ℚ) (n : ℤ) (small : (n : ℚ) ≤ 2 ^ precision) (positive : 0 < x) (below : (n : ℚ) ≤ x) :
    (n : ℚ) ≤ nearest precision x := by
  have same : |x| = x := abs_of_pos positive
  by_cases few : |x| < 2 ^ precision
  · obtain ⟨m, multiple⟩ := unit_divides precision x few positive.ne' n
    rw [multiple] at below ⊢
    exact multiple_le_nearest precision x m below
  · have log : (precision : ℤ) ≤ Int.log 2 |x| := by
      apply (Int.zpow_le_iff_le_log (by decide) (abs_pos.mpr positive.ne')).mp
      rw [zpow_natCast]
      exact not_lt.mp few
    have leading := Int.zpow_log_le_self (b := 2) (by decide) (abs_pos.mpr positive.ne')
    rw [Nat.cast_ofNat, leading_power precision wide] at leading
    calc
      (n : ℚ) ≤ 2 ^ (precision : ℤ) := by rwa [zpow_natCast]
      _ ≤ 2 ^ Int.log 2 |x| := zpow_le_zpow_right₀ (by norm_num) log
      _ = (2 ^ (precision - 1) : ℤ) * unit precision x := leading_power precision wide x
      _ ≤ nearest precision x := multiple_le_nearest precision x _ (leading.trans_eq same)

/-- Half a unit is less than the distance of a quotient from the integer below, so that rounding
does not change which integer is the next. -/
theorem ceil_nearest_div (x y : ℤ) (positive : 0 < x) (small : (x : ℚ) ≤ 2 ^ precision) (parts : 0 < y) :
    ⌈nearest precision ((x : ℚ) / y)⌉ = ⌈(x : ℚ) / y⌉ := by
  have many : (0 : ℚ) < y := by exact_mod_cast parts
  have numerator : (0 : ℚ) < x := by exact_mod_cast positive
  set q := (x : ℚ) / y with quotient
  have qPositive : 0 < q := div_pos numerator many
  have same : |q| = q := abs_of_pos qPositive
  have product : q * y = x := div_mul_cancel₀ _ many.ne'
  have qSmall : q ≤ 2 ^ precision := by
    have one : (1 : ℚ) ≤ y := by exact_mod_cast parts
    nlinarith
  rcases qSmall.eq_or_lt with power | less
  · have whole : q = ((2 ^ precision : ℤ) : ℚ) := by
      push_cast
      exact power
    rw [whole, nearest_intCast precision wide _ (by push_cast; rw [abs_of_pos (by positivity)])]
  · set n := ⌈q⌉ with next
    have below : (n : ℚ) - 1 < q := by
      have lower := Int.ceil_lt_add_one q
      linarith
    have above : q ≤ n := Int.le_ceil q
    rw [Int.ceil_eq_iff]
    constructor
    · by_cases power : |q| = 2 ^ Int.log 2 |q|
      · rwa [nearest_power precision wide q power]
      · obtain ⟨m, multiple⟩ := unit_divides precision q (by rwa [same]) qPositive.ne' (n - 1)
        push_cast at multiple
        rw [multiple]
        apply multiple_lt_nearest precision q m
        have leading := Int.zpow_log_le_self (b := 2) (by decide) (abs_pos.mpr qPositive.ne')
        rw [Nat.cast_ofNat] at leading
        have strict := (lt_of_le_of_ne leading (Ne.symm power)).trans_eq same
        rw [leading_power precision wide] at strict
        have apart : (n - 1) * y + 1 ≤ x := by
          have quotients := (lt_div_iff₀ many).mp below
          exact_mod_cast quotients
        have half : unit precision q * y < 2 := by
          have whole : (2 : ℚ) ^ precision = 2 ^ (precision - 1) * 2 := by rw [← pow_succ, Nat.sub_add_cancel wide]
          have scaled := mul_lt_mul_of_pos_right strict many
          rw [product] at scaled
          push_cast at scaled
          rw [whole] at small
          have power : (0 : ℚ) < 2 ^ (precision - 1) := by positivity
          nlinarith
        have distance : ((n : ℚ) - 1) * y + 1 ≤ q * y := by
          rw [product]
          exact_mod_cast apart
        have scaled : (m + 1 / 2) * unit precision q * y < q * y := by
          rw [multiple] at distance
          linarith
        exact lt_of_mul_lt_mul_right scaled many.le
    · obtain ⟨m, multiple⟩ := unit_divides precision q (by rwa [same]) qPositive.ne' n
      rw [multiple] at above ⊢
      exact nearest_le_multiple precision q m above

end Rounding
