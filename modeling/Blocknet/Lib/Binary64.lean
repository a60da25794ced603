import Mathlib.Algebra.Order.Field.Power
import Mathlib.Data.Int.Log
import Mathlib.Data.Rat.Floor
import Mathlib.Tactic.FieldSimp
import Mathlib.Tactic.Linarith
import Mathlib.Tactic.Positivity

/-!
# Binary64 rounding over the rationals

The result of an IEEE 754 binary64 (`double`) operation in round-to-nearest mode, for a finite
result: the exact value, rounded to the nearest double, ties to an even significand. A double
is a multiple of its spacing `2 ^ (max (-1022) ⌊log₂ |x|⌋ - 52)`, so `round` rounds `x` divided
by the spacing around it to an integer (`roundEven`) and scales back. A value converted to
`double` and the result of `+`, `*` and `/` on doubles are `round` of the exact value.
Overflow to infinity is left out: every value rounded here is far below `2 ^ 1024`.

Results:
* `abs_round_sub_le`: rounding moves a value by at most half the spacing around it, and so by
  at most `|x| / 2 ^ 53` at a value of the normal range (`abs_round_sub_le_of_normal`,
  `abs_round_sub_le_of_ge` for a positive one).
* `round_natCast`: a natural number below `2 ^ 53` is a double.
* `natFloor_range`: a value within one of `n` is cut to `n - 1` or `n` by the conversion to an
  unsigned integer (`Nat.floor`).
-/

namespace Blocknet.Lib.Binary64

/-- The integer nearest to `x`, ties to the even one. -/
def roundEven (x : ℚ) : ℤ :=
  let k := ⌊x⌋
  if x - k < 1 / 2 then k
  else if 1 / 2 < x - k then k + 1
  else k + k % 2

/-- The exponent of the spacing of the doubles around `x`: `⌊log₂ |x|⌋ - 52` in the normal
range, and `-1074` below it. -/
def quantumExp (x : ℚ) : ℤ := max (-1022) (Int.log 2 |x|) - 52

/-- The spacing of the doubles around `x`. -/
def quantum (x : ℚ) : ℚ := 2 ^ quantumExp x

/-- The double nearest to `x`, ties to an even significand. -/
def round (x : ℚ) : ℚ := roundEven (x / quantum x) * quantum x

@[simp] theorem roundEven_intCast (k : ℤ) : roundEven k = k := by
  simp [roundEven]

@[simp] theorem roundEven_zero : roundEven 0 = 0 := by
  simpa using roundEven_intCast 0

theorem abs_roundEven_sub_le (x : ℚ) : |(roundEven x : ℚ) - x| ≤ 1 / 2 := by
  have hlo := Int.floor_le x
  have hhi := Int.lt_floor_add_one x
  have hm0 : (0 : ℚ) ≤ (⌊x⌋ % 2 : ℤ) := by
    exact_mod_cast Int.emod_nonneg ⌊x⌋ (by norm_num : (2 : ℤ) ≠ 0)
  have hm1 : ((⌊x⌋ % 2 : ℤ) : ℚ) ≤ 1 := by
    exact_mod_cast (show ⌊x⌋ % 2 ≤ 1 by omega)
  unfold roundEven
  dsimp only
  split_ifs <;> push_cast <;> rw [abs_le] <;> constructor <;> linarith

theorem quantum_pos (x : ℚ) : 0 < quantum x := by
  unfold quantum
  positivity

@[simp] theorem round_zero : round 0 = 0 := by
  simp [round]

/-- A value that is not negative rounds to one that is not. -/
theorem round_nonneg {x : ℚ} (hx : 0 ≤ x) : 0 ≤ round x := by
  have hq := quantum_pos x
  have hk : 0 ≤ ⌊x / quantum x⌋ := Int.floor_nonneg.mpr (div_nonneg hx hq.le)
  have hr : 0 ≤ roundEven (x / quantum x) := by
    unfold roundEven
    dsimp only
    split_ifs <;> omega
  exact mul_nonneg (by exact_mod_cast hr) hq.le

/-- Rounding moves a value by at most half the spacing of the doubles around it. -/
theorem abs_round_sub_le (x : ℚ) : |round x - x| ≤ quantum x / 2 := by
  have hp := quantum_pos x
  have he := mul_le_mul_of_nonneg_right (abs_roundEven_sub_le (x / quantum x)) hp.le
  have hi : |round x - x| = |(roundEven (x / quantum x) : ℚ) - x / quantum x| * quantum x := by
    rw [← abs_of_pos hp, ← abs_mul, abs_of_pos hp]
    unfold round
    congr 1
    field_simp
  rw [hi]
  linarith

/-- In the normal range the spacing around `x` is at most `|x| / 2 ^ 52`. -/
theorem quantum_le {x : ℚ} (hx : (2 : ℚ) ^ (-1022 : ℤ) ≤ |x|) : quantum x ≤ |x| / 2 ^ 52 := by
  have hpos : 0 < |x| := lt_of_lt_of_le (by positivity) hx
  have hlog : -1022 ≤ Int.log 2 |x| :=
    (Int.zpow_le_iff_le_log (by norm_num) hpos).mp (by exact_mod_cast hx)
  have hle : ((2 : ℕ) : ℚ) ^ Int.log 2 |x| ≤ |x| := Int.zpow_log_le_self (by norm_num) hpos
  unfold quantum quantumExp
  rw [max_eq_right hlog, zpow_sub₀ (by norm_num)]
  exact div_le_div_of_nonneg_right (by exact_mod_cast hle) (by positivity)

/-- A value of at least `2 ^ -53` is in the normal range. -/
theorem normal_of_le {x : ℚ} (hx : 1 / 2 ^ 53 ≤ |x|) : (2 : ℚ) ^ (-1022 : ℤ) ≤ |x| := by
  have h : (2 : ℚ) ^ (-1022 : ℤ) ≤ 2 ^ (-53 : ℤ) := zpow_le_zpow_right₀ (by norm_num) (by norm_num)
  have h53 : (2 : ℚ) ^ (-53 : ℤ) = 1 / 2 ^ 53 := by norm_num
  exact h.trans (h53 ▸ hx)

/-- In the normal range rounding moves a value by at most `|x| / 2 ^ 53`. -/
theorem abs_round_sub_le_of_normal {x : ℚ} (hx : (2 : ℚ) ^ (-1022 : ℤ) ≤ |x|) :
    |round x - x| ≤ |x| / 2 ^ 53 :=
  calc |round x - x| ≤ quantum x / 2 := abs_round_sub_le x
    _ ≤ |x| / 2 ^ 52 / 2 := div_le_div_of_nonneg_right (quantum_le hx) (by norm_num)
    _ = |x| / 2 ^ 53 := by rw [div_div]; norm_num

/-- A value of at least `2 ^ -53` is moved by rounding by at most `2 ^ -53` of it. -/
theorem abs_round_sub_le_of_ge {x : ℚ} (hx : 1 / 2 ^ 53 ≤ x) : |round x - x| ≤ x / 2 ^ 53 := by
  have hx0 : 0 ≤ x := le_trans (by positivity) hx
  have h := abs_round_sub_le_of_normal (normal_of_le (by rwa [abs_of_nonneg hx0]))
  rwa [abs_of_nonneg hx0] at h

/-- A natural number below `2 ^ 53` is a double. -/
theorem round_natCast {n : ℕ} (hn : n < 2 ^ 53) : round n = n := by
  rcases Nat.eq_zero_or_pos n with rfl | hpos
  · simp
  -- the spacing around `n` is `2 ^ (log₂ n - 52)`, at most one, so `n` is a multiple of it
  have hlt : Nat.log 2 n < 53 := Nat.log_lt_of_lt_pow (by omega) hn
  have hq : quantum (n : ℚ) = 1 / 2 ^ (52 - Nat.log 2 n) := by
    have hlog : Int.log 2 |(n : ℚ)| = Nat.log 2 n := by
      rw [abs_of_nonneg (Nat.cast_nonneg n), Int.log_natCast]
    have hexp : quantumExp n = -((52 - Nat.log 2 n : ℕ) : ℤ) := by
      rw [quantumExp, hlog, max_eq_right (by omega)]
      omega
    rw [quantum, hexp, zpow_neg, zpow_natCast, one_div]
  have hint : (n : ℚ) / quantum n = ((n * 2 ^ (52 - Nat.log 2 n) : ℕ) : ℤ) := by
    rw [hq]
    push_cast
    field_simp
  rw [round, hint, roundEven_intCast, hq]
  push_cast
  field_simp

/-- A value within one of `n` is cut to `n` or `n - 1` by a conversion to an unsigned integer. -/
theorem natFloor_range {x : ℚ} {n : ℕ} (h : |x - n| < 1) : n ≤ ⌊x⌋₊ + 1 ∧ ⌊x⌋₊ ≤ n := by
  obtain ⟨hlo, hhi⟩ := abs_lt.mp h
  have hfloor := Nat.lt_floor_add_one x
  constructor
  · have : (n : ℚ) < ⌊x⌋₊ + 1 + 1 := by linarith
    exact_mod_cast Nat.lt_succ_iff.mp (by exact_mod_cast this)
  · exact Nat.lt_succ_iff.mp ((Nat.floor_lt' (Nat.succ_ne_zero n)).mpr (by push_cast; linarith))

end Blocknet.Lib.Binary64
