import HijriRecurrence.Calendar.Observed
import HijriRecurrence.Proofs.Tabular.DayShift

/-!
# Where a day is expected

The ordinal at which the observed calendar starts looking for a day comes from mean lengths of
years and months, rounded at every step.  For years below `2 ^ 20` all roundings together move it by
less than a day, so it is within two days of what the exact mean lengths give (`estimate_spec`).
-/

namespace HijriRecurrence.Observed

open Binary64 DayIndex

/-- Millionths of a day from 1 Muharram of year 1 to a day, by exact mean lengths. -/
def meanMillionths (d : LunarDay) : ℤ :=
  (d.year - 1) * 354366670 + (d.month - 1) * 29530589 + (d.day - 1) * 1000000

/-- Numbers up to `2 ^ 9` move by very little. -/
theorem abs_round53_sub_le_mean {q : ℚ} (h : |q| ≤ 2 ^ 9) : |round53 q - q| ≤ 1 / 2 ^ 44 := by
  have hbound : (2 : ℚ) ^ 9 = pow2 9 := by norm_num [pow2_eq_zpow]
  have hmove := abs_round53_sub_le (hbound ▸ h) (by norm_num)
  rwa [show pow2 (9 - 53) = 1 / 2 ^ 44 by norm_num [pow2_eq_zpow]] at hmove

/-- The mean length of a year is rounded by very little. -/
theorem meanYear_bounds :
    35436667 / 100000 - 1 / 2 ^ 44 ≤ meanYear ∧ meanYear ≤ 35436667 / 100000 + 1 / 2 ^ 44 := by
  have hmove := abs_le.1 (abs_round53_sub_le_mean (q := 35436667 / 100000) (by norm_num))
  unfold meanYear
  constructor <;> linarith [hmove.1, hmove.2]

theorem meanMonth_bounds :
    29530589 / 1000000 - 1 / 2 ^ 44 ≤ meanMonth ∧ meanMonth ≤ 29530589 / 1000000 + 1 / 2 ^ 44 := by
  have hmove := abs_le.1 (abs_round53_sub_le_mean (q := 29530589 / 1000000) (by norm_num))
  unfold meanMonth
  constructor <;> linarith [hmove.1, hmove.2]

/-- A rounded sum is near the sum of what its parts are near. -/
theorem round53_add_near {p q s t e f : ℚ} (hq : 0 ≤ q + t ∧ q + t ≤ 2 ^ 32)
    (he : e + f ≤ 1) (h : |p - q| ≤ e) (h' : |s - t| ≤ f) :
    |round53 (p + s) - (q + t)| ≤ e + f + 1 / 2 ^ 20 := by
  have hnear : |p + s - (q + t)| ≤ e + f := by
    rw [add_sub_add_comm]
    exact (abs_add_le _ _).trans (add_le_add h h')
  have hsides := abs_le.1 hnear
  have hsmall : |p + s| ≤ 2 ^ 33 := by
    rw [abs_le]
    constructor <;> linarith
  calc |round53 (p + s) - (q + t)|
      ≤ |round53 (p + s) - (p + s)| + |p + s - (q + t)| := abs_sub_le _ _ _
    _ ≤ 1 / 2 ^ 20 + (e + f) := add_le_add (abs_round53_sub_le_index hsmall) hnear
    _ = e + f + 1 / 2 ^ 20 := add_comm _ _

/-- Numbers of few bits are taken as they are. -/
theorem ofInt?_eq_some {n : ℤ} (hn : -2 ^ 52 < n ∧ n < 2 ^ 52) : ofInt? n = some (n : ℚ) := by
  have hfinite := finite_intCast hn
  unfold finite at hfinite
  unfold ofInt?
  rw [round53_intCast hn] at hfinite ⊢
  dsimp only at hfinite ⊢
  split at hfinite
  next hbounds => exact if_pos hbounds
  next => cases hfinite

/-- A few mean lengths, rounded, are near the exact ones. -/
theorem round53_mul_near {mean exact : ℚ} {n : ℤ} (hn : 0 ≤ n ∧ n ≤ 2 ^ 20)
    (hexact : 0 ≤ exact ∧ exact ≤ 2 ^ 9)
    (hmean : exact - 1 / 2 ^ 44 ≤ mean ∧ mean ≤ exact + 1 / 2 ^ 44) :
    |round53 (n * mean) - n * exact| ≤ 1 / 2 ^ 19 := by
  have hn0 : (0 : ℚ) ≤ n := Int.cast_nonneg hn.1
  have hn1 : (n : ℚ) ≤ 2 ^ 20 := by exact_mod_cast hn.2
  have hbound : (n : ℚ) * exact ≤ 2 ^ 20 * 2 ^ 9 :=
    mul_le_mul hn1 hexact.2 hexact.1 (by norm_num)
  have hmove : |(n : ℚ) * mean - n * exact| ≤ 1 / 2 ^ 24 := by
    have hdiff : |mean - exact| ≤ 1 / 2 ^ 44 := by
      rw [abs_le]
      constructor <;> linarith [hmean.1, hmean.2]
    rw [← mul_sub, abs_mul, abs_of_nonneg hn0]
    calc (n : ℚ) * |mean - exact| ≤ 2 ^ 20 * (1 / 2 ^ 44) :=
          mul_le_mul hn1 hdiff (abs_nonneg _) (by norm_num)
      _ = 1 / 2 ^ 24 := by norm_num
  have hround := round53_add_near (s := 0) (t := 0) (f := 0)
    ⟨by rw [add_zero]; exact mul_nonneg hn0 hexact.1, by linarith⟩ (by norm_num) hmove
    (by simp)
  rw [add_zero, add_zero] at hround
  exact hround.trans (by norm_num)

/-- **A day is expected within two days of where exact mean lengths put it.** -/
theorem estimate_spec {d : LunarDay} (hy : 1 ≤ d.year ∧ d.year ≤ 2 ^ 20)
    (hm : 1 ≤ d.month ∧ d.month ≤ 12) (hd : 1 ≤ d.day ∧ d.day ≤ 30) :
    ∃ expected, estimate d = .ok expected ∧
      meanMillionths d - 2000000 ≤ (expected - epochOrdinal) * 1000000 ∧
        (expected - epochOrdinal) * 1000000 ≤ meanMillionths d + 2000000 := by
  have hyears := ofInt?_eq_some (n := d.year - 1) (by omega)
  have hY := round53_mul_near (n := d.year - 1) (by omega) (by norm_num) meanYear_bounds
  have hM := round53_mul_near (n := d.month - 1) (by omega) (by norm_num) meanMonth_bounds
  have hyear0 : (0 : ℚ) ≤ ((d.year - 1 : ℤ) : ℚ) := Int.cast_nonneg (by omega)
  have hyear1 : ((d.year - 1 : ℤ) : ℚ) ≤ 2 ^ 20 := by exact_mod_cast (by omega : d.year - 1 ≤ 2 ^ 20)
  have hmonth0 : (0 : ℚ) ≤ ((d.month - 1 : ℤ) : ℚ) := Int.cast_nonneg (by omega)
  have hmonth1 : ((d.month - 1 : ℤ) : ℚ) ≤ 11 := by exact_mod_cast (by omega : d.month - 1 ≤ 11)
  have hday0 : (1 : ℚ) ≤ d.day := by exact_mod_cast hd.1
  have hday1 : (d.day : ℚ) ≤ 30 := by exact_mod_cast hd.2
  have hexact : (meanMillionths d : ℚ) / 1000000 =
      ((d.year - 1 : ℤ) : ℚ) * (35436667 / 100000) + ((d.month - 1 : ℤ) : ℚ) *
        (29530589 / 1000000) + d.day + -1 := by
    unfold meanMillionths
    push_cast
    ring
  unfold estimate
  rw [hyears]
  generalize ((d.year - 1 : ℤ) : ℚ) = years at *
  rw [show (d.month : ℚ) - 1 = ((d.month - 1 : ℤ) : ℚ) by push_cast; rfl]
  generalize ((d.month - 1 : ℤ) : ℚ) = months at *
  -- the steps of the estimate, each near the exact one
  have hsum := round53_add_near (by constructor <;> linarith) (by norm_num) hY hM
  have hplus := round53_add_near (s := d.day) (t := d.day) (f := 0)
    (by constructor <;> linarith) (by norm_num) hsum (by simp)
  have hminus := round53_add_near (s := -1) (t := -1) (f := 0)
    (by constructor <;> linarith) (by norm_num) hplus (by simp)
  rw [← hexact, ← sub_eq_add_neg] at hminus
  refine ⟨_, rfl, ?_⟩
  generalize round53 (round53 (round53 (round53 (years * meanYear) +
    round53 (months * meanMonth)) + d.day) - 1) = r at *
  have hr := abs_le.1 hminus
  have hfloor : (r.floor : ℚ) ≤ r := Rat.floor_le r
  have hfloor' : r < r.floor + 1 := by
    have := Rat.lt_floor_add_one r
    push_cast at this
    exact this
  have hlow : (meanMillionths d : ℚ) - 2000000 ≤ r.floor * 1000000 := by linarith
  have hhigh : (r.floor : ℚ) * 1000000 ≤ meanMillionths d + 2000000 := by linarith
  rw [add_sub_cancel_left]
  exact ⟨by exact_mod_cast hlow, by exact_mod_cast hhigh⟩

end HijriRecurrence.Observed
