import Mathlib.Data.Int.Log
import Mathlib.Algebra.Order.Archimedean.Basic
import Mathlib.Data.Rat.Floor
import Mathlib.Tactic.Linarith
import Mathlib.Tactic.Ring
import Mathlib.Tactic.NormNum

/-!
# Numbers of double precision

The rational numbers, rounded as in binary arithmetic with 53 significant bits; the range of the
exponents is not bounded.

* `roundEven`         to the nearest integer, from the middle to the even one;
* `double`            to the nearest number of double precision;
* `trunc`             to an integer, towards zero;
* `le_double`, `double_le`   rounding does not pass an integer below `2 ^ 53`;
* `abs_double_sub_le` how far it goes.
-/

namespace Binary64

def roundEven (q : ℚ) : ℤ :=
  if q - ⌊q⌋ < 1 / 2 ∨ q - ⌊q⌋ = 1 / 2 ∧ ⌊q⌋ % 2 = 0 then ⌊q⌋ else ⌊q⌋ + 1

/-- the value of the last of the 53 bits -/
def ulp (x : ℚ) : ℚ := 2 ^ (Int.log 2 |x| - 52)

def double (x : ℚ) : ℚ := roundEven (x / ulp x) * ulp x

def trunc (x : ℚ) : ℤ := if 0 ≤ x then ⌊x⌋ else ⌈x⌉

section
variable {q : ℚ} {n : ℤ}

theorem floor_le_roundEven (q : ℚ) : ⌊q⌋ ≤ roundEven q := by
  unfold roundEven
  split <;> omega

theorem roundEven_le_floor_succ (q : ℚ) : roundEven q ≤ ⌊q⌋ + 1 := by
  unfold roundEven
  split <;> omega

theorem le_roundEven (h : n ≤ q) : n ≤ roundEven q :=
  (Int.le_floor.mpr h).trans (floor_le_roundEven q)

theorem roundEven_intCast (n : ℤ) : roundEven n = n := by
  unfold roundEven
  rw [Int.floor_intCast, sub_self, if_pos (.inl (by norm_num))]

theorem roundEven_le (h : q ≤ n) : roundEven q ≤ n := by
  rcases h.lt_or_eq with h | rfl
  · have hfloor : ⌊q⌋ < n := Int.floor_lt.mpr h
    have := roundEven_le_floor_succ q
    omega
  · exact (roundEven_intCast n).le

theorem abs_roundEven_sub_le (q : ℚ) : |roundEven q - q| ≤ 1 / 2 := by
  have hle := Int.floor_le q
  have hlt := Int.lt_floor_add_one q
  unfold roundEven
  split
  · rename_i h
    have hhalf : q - ⌊q⌋ ≤ 1 / 2 := h.elim le_of_lt fun h => h.1.le
    rw [abs_le]
    constructor <;> linarith
  · rename_i h
    have hhalf : 1 / 2 ≤ q - ⌊q⌋ := not_lt.mp fun hlt => h (.inl hlt)
    rw [Int.cast_add, Int.cast_one, abs_le]
    constructor <;> linarith

end

theorem ulp_pos (x : ℚ) : 0 < ulp x := zpow_pos (by norm_num) _

section
variable {x : ℚ}

theorem ulp_le {k : ℤ} (hx : 0 < x) (hk : x < 2 ^ k) : ulp x ≤ 2 ^ (k - 53) := by
  have hlog : Int.log 2 |x| < k := by
    rw [abs_of_pos hx]
    exact (Int.lt_zpow_iff_log_lt one_lt_two hx).mp (by exact_mod_cast hk)
  exact zpow_le_zpow_right₀ (by norm_num) (by omega)

theorem exists_mul_ulp (hx : 0 < x) (hk : x < 2 ^ (53 : ℤ)) (n : ℤ) : ∃ m : ℤ, (n : ℚ) = m * ulp x := by
  have hlog : Int.log 2 |x| < 53 := by
    rw [abs_of_pos hx]
    exact (Int.lt_zpow_iff_log_lt one_lt_two hx).mp (by exact_mod_cast hk)
  obtain ⟨k, hk⟩ := Int.eq_ofNat_of_zero_le (show 0 ≤ 52 - Int.log 2 |x| by omega)
  refine ⟨n * 2 ^ k, ?_⟩
  have hpow : (2 : ℚ) ^ k * ulp x = 1 := by
    rw [ulp, ← zpow_natCast, ← zpow_add₀ (by norm_num : (2 : ℚ) ≠ 0)]
    rw [show (k : ℤ) + (Int.log 2 |x| - 52) = 0 by omega, zpow_zero]
  push_cast
  rw [mul_assoc, hpow, mul_one]

theorem double_zero : double 0 = 0 := by
  have h : roundEven 0 = 0 := by exact_mod_cast roundEven_intCast 0
  rw [double, zero_div, h, Int.cast_zero, zero_mul]

theorem le_double {n : ℤ} (hx : 0 ≤ x) (hk : x < 2 ^ (53 : ℤ)) (h : n ≤ x) : n ≤ double x := by
  rcases hx.eq_or_lt with rfl | hx
  · rwa [double_zero]
  obtain ⟨m, hm⟩ := exists_mul_ulp hx hk n
  have hpos := ulp_pos x
  have hq : (m : ℚ) ≤ x / ulp x := by
    rw [le_div_iff₀ hpos, ← hm]
    exact h
  have hround : (m : ℚ) ≤ roundEven (x / ulp x) := Int.cast_le.mpr (le_roundEven hq)
  rw [hm]
  exact mul_le_mul_of_nonneg_right hround hpos.le

theorem double_le {n : ℤ} (hx : 0 ≤ x) (hk : x < 2 ^ (53 : ℤ)) (h : x ≤ n) : double x ≤ n := by
  rcases hx.eq_or_lt with rfl | hx
  · rwa [double_zero]
  obtain ⟨m, hm⟩ := exists_mul_ulp hx hk n
  have hpos := ulp_pos x
  have hq : x / ulp x ≤ m := by
    rw [div_le_iff₀ hpos, ← hm]
    exact h
  have hround : (roundEven (x / ulp x) : ℚ) ≤ m := Int.cast_le.mpr (roundEven_le hq)
  rw [hm]
  exact mul_le_mul_of_nonneg_right hround hpos.le

theorem abs_double_sub_le {k : ℤ} (hx : 0 ≤ x) (hk : x < 2 ^ k) :
    |double x - x| ≤ 2 ^ (k - 54) := by
  rcases hx.eq_or_lt with rfl | hx
  · rw [double_zero, sub_zero, abs_zero]
    exact zpow_nonneg (by norm_num) _
  · have hpos := ulp_pos x
    have heq : double x - x = (roundEven (x / ulp x) - x / ulp x) * ulp x := by
      rw [sub_mul, div_mul_cancel₀ x hpos.ne', double]
    rw [heq, abs_mul, abs_of_pos hpos]
    calc |roundEven (x / ulp x) - x / ulp x| * ulp x
        ≤ 1 / 2 * 2 ^ (k - 53) :=
          mul_le_mul (abs_roundEven_sub_le _) (ulp_le hx hk) hpos.le (by norm_num)
      _ = 2 ^ (k - 54) := by
          rw [show k - 53 = k - 54 + 1 by ring, zpow_add_one₀ (by norm_num : (2 : ℚ) ≠ 0)]
          ring

theorem trunc_of_nonneg (hx : 0 ≤ x) : trunc x = ⌊x⌋ := if_pos hx

end
end Binary64
