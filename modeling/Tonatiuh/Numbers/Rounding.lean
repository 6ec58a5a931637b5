import Mathlib.Data.Int.Log
import Mathlib.Data.Rat.Floor
import Mathlib.Tactic.Linarith
import Mathlib.Tactic.FieldSimp
import Mathlib.Tactic.Ring

/-! The rounding of rationals to a fixed count of significant binary digits.

A number of `w` digits is an integer of `w` digits times a power of two. `nearest` rounds to the
nearest of them, and of two that are equally near to the one with the even integer. The powers of
two are not bounded. -/

namespace Tonatiuh.Numbers

/-! ## To integers -/

/-- The nearest integer, and of two the even one. -/
def roundEven (x : ℚ) : ℤ :=
  if Int.fract x < 1 / 2 ∨ Int.fract x = 1 / 2 ∧ ⌊x⌋ % 2 = 0 then ⌊x⌋ else ⌊x⌋ + 1

theorem roundEven_cases (x : ℚ) : (roundEven x = ⌊x⌋ ∧ Int.fract x ≤ 1 / 2) ∨
    (roundEven x = ⌊x⌋ + 1 ∧ 1 / 2 ≤ Int.fract x) := by
  unfold roundEven
  split
  next h => exact .inl ⟨rfl, h.elim le_of_lt fun h => h.1.le⟩
  next h => exact .inr ⟨rfl, not_lt.mp fun hlt => h (.inl hlt)⟩

theorem abs_sub_roundEven_le_half (x : ℚ) : |x - roundEven x| ≤ 1 / 2 := by
  have hfract : x = ⌊x⌋ + Int.fract x := (Int.floor_add_fract x).symm
  have hlt := Int.fract_lt_one x
  have hnonneg := Int.fract_nonneg x
  rcases roundEven_cases x with ⟨hround, hhalf⟩ | ⟨hround, hhalf⟩
  · rw [hround, abs_le]
    constructor <;> linarith
  · rw [hround, abs_le]
    push_cast
    constructor <;> linarith

/-- No integer is nearer. -/
theorem abs_sub_roundEven_le (x : ℚ) (m : ℤ) : |x - roundEven x| ≤ |x - m| := by
  by_cases hm : roundEven x = m
  · rw [hm]
  · have hone : (1 : ℚ) ≤ |(roundEven x : ℚ) - m| := by
      rw [← Int.cast_sub, ← Int.cast_abs]
      exact_mod_cast Int.one_le_abs (sub_ne_zero.mpr hm)
    have hhalf := abs_sub_roundEven_le_half x
    have htriangle : |(roundEven x : ℚ) - m| ≤ |(roundEven x : ℚ) - x| + |x - m| := abs_sub_le _ _ _
    rw [abs_sub_comm (roundEven x : ℚ) x] at htriangle
    linarith

/-! ## To significant digits -/

variable (w : ℕ)

/-- The distance between the numbers of `w` digits from `x` on. -/
def ulp (x : ℚ) : ℚ := 2 ^ (Int.log 2 x + 1 - w)

def nearest (x : ℚ) : ℚ := roundEven (x / ulp w x) * ulp w x

def IsRepresentable (x : ℚ) : Prop := ∃ m k : ℤ, |m| ≤ 2 ^ w ∧ x = m * 2 ^ k

variable {w} {x y : ℚ}

theorem ulp_pos : 0 < ulp w x := zpow_pos two_pos _

theorem isRepresentable_natCast {n : ℕ} (h : n ≤ 2 ^ w) : IsRepresentable w n :=
  ⟨n, 0, by rw [Nat.abs_cast]; exact_mod_cast h, by simp⟩

/-- In units of the distance, a positive number has `w` digits before its point. -/
theorem div_ulp_mem (hx : 0 < x) : (2 : ℚ) ^ ((w : ℤ) - 1) ≤ x / ulp w x ∧ x / ulp w x < 2 ^ w := by
  have hlow : (2 : ℚ) ^ Int.log 2 x ≤ x := by exact_mod_cast Int.zpow_log_le_self one_lt_two hx
  have hhigh : x < (2 : ℚ) ^ (Int.log 2 x + 1) := by
    exact_mod_cast Int.lt_zpow_succ_log_self one_lt_two x
  constructor
  · rw [le_div_iff₀ ulp_pos, ulp, ← zpow_add₀ two_ne_zero]
    rwa [show (w : ℤ) - 1 + (Int.log 2 x + 1 - w) = Int.log 2 x by ring]
  · rw [div_lt_iff₀ ulp_pos, ulp, ← zpow_natCast, ← zpow_add₀ two_ne_zero]
    rwa [show (w : ℤ) + (Int.log 2 x + 1 - w) = Int.log 2 x + 1 by ring]

theorem abs_sub_nearest (x : ℚ) :
    |x - nearest w x| = |x / ulp w x - roundEven (x / ulp w x)| * ulp w x := by
  rw [← abs_of_pos (ulp_pos (w := w) (x := x)), ← abs_mul, abs_of_pos ulp_pos, sub_mul,
    div_mul_cancel₀ _ ulp_pos.ne', nearest]

theorem abs_sub_nearest_le_half : |x - nearest w x| ≤ ulp w x / 2 := by
  rw [abs_sub_nearest]
  have hhalf := mul_le_mul_of_nonneg_right (abs_sub_roundEven_le_half (x / ulp w x))
    (ulp_pos (w := w) (x := x)).le
  linarith

/-- No multiple of the distance is nearer. -/
theorem abs_sub_nearest_le_of_mul (m : ℤ) : |x - nearest w x| ≤ |x - m * ulp w x| := by
  have hmul :=
    mul_le_mul_of_nonneg_right (abs_sub_roundEven_le (x / ulp w x) m) (ulp_pos (w := w) (x := x)).le
  rwa [← abs_sub_nearest, ← abs_of_pos (ulp_pos (w := w) (x := x)), ← abs_mul,
    abs_of_pos ulp_pos, sub_mul,
    div_mul_cancel₀ _ ulp_pos.ne'] at hmul

/-- A number of `w` digits is a multiple of the distance around `x`, or is at most the power of two
below `x`. -/
theorem IsRepresentable.eq_mul_or_le (hy : IsRepresentable w y) :
    (∃ m : ℤ, y = m * ulp w x) ∨ y ≤ (2 : ℚ) ^ Int.log 2 x := by
  obtain ⟨m, k, hm, rfl⟩ := hy
  rcases le_or_gt (Int.log 2 x + 1 - w) k with hk | hk
  · obtain ⟨j, hj⟩ := Int.eq_ofNat_of_zero_le (sub_nonneg.mpr hk)
    refine .inl ⟨m * 2 ^ j, ?_⟩
    rw [ulp, show k = (j : ℤ) + (Int.log 2 x + 1 - w) by omega, zpow_add₀ two_ne_zero, zpow_natCast]
    push_cast
    ring
  · refine .inr ?_
    have hm' : (m : ℚ) ≤ 2 ^ w := by exact_mod_cast (le_abs_self m).trans hm
    calc (m : ℚ) * 2 ^ k ≤ 2 ^ w * 2 ^ k := mul_le_mul_of_nonneg_right hm' (zpow_pos two_pos k).le
      _ = 2 ^ ((w : ℤ) + k) := by rw [zpow_add₀ two_ne_zero, zpow_natCast]
      _ ≤ 2 ^ Int.log 2 x := zpow_le_zpow_right₀ one_le_two (by omega)

/-- The power of two below a number is a multiple of its distance. -/
theorem zpow_log_eq_mul (hw : 0 < w) :
    (2 : ℚ) ^ Int.log 2 x = ((2 ^ (w - 1) : ℤ) : ℚ) * ulp w x := by
  obtain ⟨v, rfl⟩ := Nat.exists_eq_add_one.mpr hw
  rw [ulp, Nat.add_sub_cancel]
  push_cast
  rw [← zpow_natCast, ← zpow_add₀ two_ne_zero]
  congr 1
  ring

/-- No number of `w` digits is nearer. -/
theorem abs_sub_nearest_le (hw : 0 < w) (hx : 0 < x) (hy : IsRepresentable w y) :
    |x - nearest w x| ≤ |x - y| := by
  rcases hy.eq_mul_or_le (x := x) with ⟨m, rfl⟩ | hle
  · exact abs_sub_nearest_le_of_mul m
  · have hlow : (2 : ℚ) ^ Int.log 2 x ≤ x := by exact_mod_cast Int.zpow_log_le_self one_lt_two hx
    have hpow := abs_sub_nearest_le_of_mul (w := w) (x := x) (2 ^ (w - 1))
    rw [← zpow_log_eq_mul hw, abs_of_nonneg (sub_nonneg.mpr hlow)] at hpow
    rw [abs_of_nonneg (sub_nonneg.mpr (hle.trans hlow))]
    exact hpow.trans (sub_le_sub_left hle x)

theorem isRepresentable_nearest (hx : 0 < x) : IsRepresentable w (nearest w x) := by
  refine ⟨roundEven (x / ulp w x), _, ?_, rfl⟩
  obtain ⟨hlow, hhigh⟩ := div_ulp_mem (w := w) hx
  have hfloor : ⌊x / ulp w x⌋ < 2 ^ w := Int.floor_lt.mpr (by exact_mod_cast hhigh)
  have hnonneg : 0 ≤ ⌊x / ulp w x⌋ := Int.floor_nonneg.mpr (div_nonneg hx.le ulp_pos.le)
  rcases roundEven_cases (x / ulp w x) with ⟨hround, -⟩ | ⟨hround, -⟩
  · rw [hround, abs_of_nonneg hnonneg]
    exact hfloor.le
  · rw [hround, abs_of_nonneg (by omega)]
    exact hfloor

theorem nearest_of_isRepresentable (hw : 0 < w) (hx : 0 < x) (h : IsRepresentable w x) :
    nearest w x = x := by
  have hle := abs_sub_nearest_le hw hx h
  rw [sub_self, abs_zero] at hle
  exact (sub_eq_zero.mp (abs_nonpos_iff.mp hle)).symm

theorem abs_sub_le_abs_sub_iff {a b : ℚ} : |x - a| ≤ |x - b| ↔ 0 ≤ (a - b) * (2 * x - (a + b)) := by
  rw [← sq_le_sq, ← sub_nonneg]
  ring_nf

theorem nearest_mono (hw : 0 < w) (hx : 0 < x) (h : x ≤ y) : nearest w x ≤ nearest w y := by
  by_contra hnot
  have hlt : 0 < nearest w x - nearest w y := sub_pos.mpr (not_le.mp hnot)
  have hy := hx.trans_le h
  have hx' :=
    abs_sub_le_abs_sub_iff.mp (abs_sub_nearest_le hw hx (isRepresentable_nearest (w := w) hy))
  have hy' :=
    abs_sub_le_abs_sub_iff.mp (abs_sub_nearest_le hw hy (isRepresentable_nearest (w := w) hx))
  -- Both numbers are the middle of their roundings.
  have hlow : 0 ≤ 2 * x - (nearest w x + nearest w y) := nonneg_of_mul_nonneg_right hx' hlt
  have hhigh : 0 ≤ (nearest w x + nearest w y) - 2 * y := by
    refine nonneg_of_mul_nonneg_right (a := nearest w x - nearest w y) ?_ hlt
    linarith
  have hsame : x = y := by linarith
  rw [hsame, sub_self] at hlt
  exact lt_irrefl _ hlt

/-! ## Of integers -/

theorem nearest_natCast {n : ℕ} (hw : 0 < w) (h : n ≤ 2 ^ w) : nearest w n = n := by
  rcases n.eq_zero_or_pos with rfl | hn
  · simp [nearest, roundEven]
  · exact nearest_of_isRepresentable hw (by exact_mod_cast hn) (isRepresentable_natCast h)

/-- A rounding below `2 ^ w` has rounded nothing. -/
theorem eq_of_nearest_lt {n : ℕ} (hw : 0 < w) (h : nearest w n < 2 ^ w) : nearest w n = n := by
  refine nearest_natCast hw (le_of_not_gt fun hlt => ?_)
  have hmono : nearest w ((2 ^ w : ℕ) : ℚ) ≤ nearest w n :=
    nearest_mono hw (by positivity) (by exact_mod_cast hlt.le)
  rw [nearest_natCast hw le_rfl] at hmono
  push_cast at hmono
  exact absurd h (not_lt.mpr hmono)

/-! ## Numbers -/

/-- The Numbers from 0 on that are no less than the smallest of 53 digits, 2^-1022, or 0. -/
inductive Number where
  | finite (x : ℚ)
  | infinity
  deriving DecidableEq, Repr

def Number.ofRat (x : ℚ) : Number :=
  if nearest 53 x < 2 ^ 1024 then .finite (nearest 53 x) else .infinity

end Tonatiuh.Numbers
