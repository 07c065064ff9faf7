import HijriRecurrence.Number.Binary64
import Mathlib.Algebra.Order.Field.Power
import Mathlib.Data.Rat.Floor
import Mathlib.Tactic.Linarith
import Mathlib.Tactic.NormNum
import Mathlib.Tactic.Positivity
import Mathlib.Tactic.Ring

/-!
# How far rounding goes

Rounding to 53 bits moves a number by half a unit in its last place at most, and does not move
numbers that have few enough bits.

* `abs_nearest_sub_le` — the nearest integer is within a half;
* `log2Floor_le` — the power of two found for a number is not above it;
* `abs_round53_sub_le` — a number up to `2 ^ k` moves by `2 ^ (k - 53)` at most;
* `half_le_round53` — however large it is, a number keeps half of its size;
* `round53_half` — whole and half numbers of at most 53 bits do not move.
-/

namespace HijriRecurrence.Binary64

variable {q : ℚ}

/-! ### The nearest integer -/

/-- The nearest integer is within a half. -/
theorem abs_nearest_sub_le (q : ℚ) : |(nearest q : ℚ) - q| ≤ 1 / 2 := by
  have hlow : (q.floor : ℚ) ≤ q := Rat.floor_le q
  have hhigh : q < q.floor + 1 := by
    have := Rat.lt_floor_add_one q
    push_cast at this
    exact this
  rw [abs_le]
  unfold nearest
  dsimp only
  split
  · constructor <;> linarith
  · split
    · push_cast
      constructor <;> linarith
    · split
      · constructor <;> linarith
      · push_cast
        constructor <;> linarith

/-- An integer within less than a half is the nearest one. -/
theorem nearest_eq_of_abs_lt {n : ℤ} (h : |q - n| < 1 / 2) : nearest q = n := by
  have hnear := abs_le.1 (abs_nearest_sub_le q)
  have hclose := abs_lt.1 h
  have hlt : (nearest q : ℚ) < n + 1 := by linarith
  have hgt : (n : ℚ) < nearest q + 1 := by linarith
  have hlt' : nearest q < n + 1 := by exact_mod_cast hlt
  have hgt' : n < nearest q + 1 := by exact_mod_cast hgt
  omega

@[simp] theorem nearest_intCast (n : ℤ) : nearest (n : ℚ) = n :=
  nearest_eq_of_abs_lt (by norm_num)

/-! ### Powers of two -/

theorem pow2_eq_zpow (e : ℤ) : pow2 e = (2 : ℚ) ^ e := by
  unfold pow2
  by_cases he : 0 ≤ e
  · rw [if_pos he]
    obtain ⟨n, rfl⟩ := Int.eq_ofNat_of_zero_le he
    simp
  · rw [if_neg he]
    obtain ⟨n, hn⟩ := Int.eq_ofNat_of_zero_le (show 0 ≤ -e by omega)
    obtain rfl : e = -(n : ℤ) := by omega
    simp

theorem pow2_natCast (k : ℕ) : pow2 k = ((2 ^ k : ℤ) : ℚ) := by
  rw [pow2_eq_zpow, zpow_natCast]
  push_cast
  rfl

theorem pow2_pos (e : ℤ) : 0 < pow2 e := by
  rw [pow2_eq_zpow]
  exact zpow_pos (by norm_num) e

theorem pow2_le_pow2 {d e : ℤ} : pow2 d ≤ pow2 e ↔ d ≤ e := by
  rw [pow2_eq_zpow, pow2_eq_zpow]
  exact zpow_le_zpow_iff_right₀ (by norm_num)

theorem pow2_lt_pow2 {d e : ℤ} : pow2 d < pow2 e ↔ d < e := by
  rw [pow2_eq_zpow, pow2_eq_zpow]
  exact zpow_lt_zpow_iff_right₀ (by norm_num)

/-- The power of two found for a number is not above it. -/
theorem log2Floor_le (hq : 0 < q) : pow2 (log2Floor q) ≤ q := by
  unfold log2Floor
  dsimp only
  split
  · assumption
  · have hnum : q.num.natAbs ≠ 0 := Int.natAbs_ne_zero.2 (Rat.num_ne_zero.2 (ne_of_gt hq))
    have hlow : (2 : ℚ) ^ q.num.natAbs.log2 ≤ q.num := by
      have hnat := Nat.log2_self_le hnum
      have hint : (q.num.natAbs : ℤ) = q.num := Int.natAbs_of_nonneg (Rat.num_nonneg.2 hq.le)
      rw [← hint]
      exact_mod_cast hnat
    have hhigh : (q.den : ℚ) ≤ 2 ^ (q.den.log2 + 1) := by
      have hnat := Nat.lt_log2_self (n := q.den)
      exact_mod_cast hnat.le
    have hden : (0 : ℚ) < q.den := by exact_mod_cast q.den_pos
    rw [pow2_eq_zpow, sub_sub, zpow_sub₀ (by norm_num), zpow_natCast]
    rw [show (q.den.log2 : ℤ) + 1 = ((q.den.log2 + 1 : ℕ) : ℤ) by simp, zpow_natCast]
    calc (2 : ℚ) ^ q.num.natAbs.log2 / 2 ^ (q.den.log2 + 1)
        ≤ q.num / q.den := div_le_div₀ (by exact_mod_cast (Rat.num_nonneg.2 hq.le)) hlow hden hhigh
      _ = q := Rat.num_div_den q

/-! ### Rounding -/

/-- The unit of a number below `2 ^ k`, unless that is tiny, is `2 ^ (k - 53)` at most. -/
theorem unitExponent_le {k : ℤ} (hq : 0 < q) (h : q < pow2 k) (hk : -1021 ≤ k) :
    unitExponent q ≤ k - 53 := by
  have hlog : log2Floor q < k := pow2_lt_pow2.1 ((log2Floor_le hq).trans_lt h)
  unfold unitExponent
  omega

theorem abs_roundMagnitude_sub_le {k : ℤ} (hq : 0 ≤ q) (h : q ≤ pow2 k) (hk : -1022 ≤ k) :
    |roundMagnitude q - q| ≤ pow2 (k - 53) := by
  unfold roundMagnitude
  by_cases hzero : q = 0
  · rw [if_pos hzero, hzero, sub_zero, abs_zero]
    exact (pow2_pos _).le
  · rw [if_neg hzero]
    dsimp only
    have hunit := pow2_pos (unitExponent q)
    have hle := unitExponent_le (lt_of_le_of_ne hq (Ne.symm hzero))
      (h.trans_lt (pow2_lt_pow2.2 (Int.lt_succ k))) (by omega)
    calc |(nearest (q / pow2 (unitExponent q)) : ℚ) * pow2 (unitExponent q) - q|
        = |((nearest (q / pow2 (unitExponent q)) : ℚ) - q / pow2 (unitExponent q)) *
            pow2 (unitExponent q)| := by rw [sub_mul, div_mul_cancel₀ _ hunit.ne']
      _ = |(nearest (q / pow2 (unitExponent q)) : ℚ) - q / pow2 (unitExponent q)| *
            pow2 (unitExponent q) := by rw [abs_mul, abs_of_pos hunit]
      _ ≤ 1 / 2 * pow2 (unitExponent q) :=
          mul_le_mul_of_nonneg_right (abs_nearest_sub_le _) hunit.le
      _ = pow2 (unitExponent q - 1) := by
          rw [pow2_eq_zpow, pow2_eq_zpow, zpow_sub_one₀ (by norm_num)]
          ring
      _ ≤ pow2 (k - 53) := pow2_le_pow2.2 (by omega)

/-- **A number up to a power of two moves by half a unit of it at most.** -/
theorem abs_round53_sub_le {k : ℤ} (h : |q| ≤ pow2 k) (hk : -1022 ≤ k) :
    |round53 q - q| ≤ pow2 (k - 53) := by
  unfold round53
  by_cases hneg : q < 0
  · rw [abs_of_neg hneg] at h
    have hmagnitude := abs_roundMagnitude_sub_le (show 0 ≤ -q by linarith) h hk
    rw [if_pos hneg, ← abs_neg, show -(-roundMagnitude (-q) - q) = roundMagnitude (-q) - -q by ring]
    exact hmagnitude
  · have hpos : 0 ≤ q := not_lt.1 hneg
    rw [abs_of_nonneg hpos] at h
    rw [if_neg hneg]
    exact abs_roundMagnitude_sub_le hpos h hk

/-- A number from 1 on keeps half of its size at least, however large it is. -/
theorem half_le_round53 (h : 1 ≤ q) : q / 2 ≤ round53 q := by
  have hpos : 0 < q := by linarith
  have hunit : pow2 (unitExponent q) ≤ q := by
    unfold unitExponent
    rcases max_choice (log2Floor q - 52) (-1074) with hmax | hmax
    · rw [hmax]
      exact (pow2_le_pow2.2 (by omega)).trans (log2Floor_le hpos)
    · rw [hmax]
      exact (pow2_le_pow2.2 (by norm_num : (-1074 : ℤ) ≤ 0)).trans (by simpa [pow2] using h)
  have hunitPos := pow2_pos (unitExponent q)
  have hnear := (abs_le.1 (abs_nearest_sub_le (q / pow2 (unitExponent q)))).1
  have hscaled := mul_le_mul_of_nonneg_right hnear hunitPos.le
  rw [sub_mul, div_mul_cancel₀ _ hunitPos.ne'] at hscaled
  rw [round53, if_neg (not_lt.2 hpos.le), roundMagnitude, if_neg hpos.ne']
  linarith

/-- A number of whole units is its own rounding. -/
theorem roundMagnitude_eq_self {m : ℤ} (hm : q / pow2 (unitExponent q) = m) :
    roundMagnitude q = q := by
  unfold roundMagnitude
  by_cases hzero : q = 0
  · rw [if_pos hzero, hzero]
  · rw [if_neg hzero]
    dsimp only
    rw [hm, nearest_intCast, ← hm, div_mul_cancel₀ _ (pow2_pos _).ne']

theorem roundMagnitude_half {n : ℕ} (hn : n < 2 ^ 53) : roundMagnitude ((n : ℚ) / 2) = n / 2 := by
  rcases Nat.eq_zero_or_pos n with rfl | hpos
  · simp [roundMagnitude]
  · have hq : (0 : ℚ) < n / 2 := by positivity
    have hlt : (n : ℚ) / 2 < pow2 52 := by
      have hcast : (n : ℚ) < 2 ^ 53 := by exact_mod_cast hn
      rw [pow2_eq_zpow, div_lt_iff₀ (by norm_num)]
      exact hcast.trans_eq (by norm_num)
    have hunit := unitExponent_le hq hlt (by norm_num)
    obtain ⟨j, hj⟩ := Int.eq_ofNat_of_zero_le (show 0 ≤ -1 - unitExponent ((n : ℚ) / 2) by omega)
    -- the unit is the half of a power of two with a negative exponent, or smaller
    have hwhole : (n : ℚ) / 2 / pow2 (unitExponent ((n : ℚ) / 2)) = ((n * 2 ^ j : ℕ) : ℤ) := by
      rw [show unitExponent ((n : ℚ) / 2) = -1 - (j : ℤ) by omega, pow2_eq_zpow,
        zpow_sub₀ (by norm_num), zpow_natCast]
      push_cast
      field_simp
    exact roundMagnitude_eq_self hwhole

/-- **Whole and half numbers of at most 53 bits do not move.** -/
theorem round53_half {n : ℤ} (hn : -2 ^ 53 < n ∧ n < 2 ^ 53) : round53 ((n : ℚ) / 2) = n / 2 := by
  have hmagnitude := roundMagnitude_half (n := n.natAbs) (by omega)
  have hsign : (n : ℚ) / 2 < 0 ↔ n < 0 := by
    rw [div_lt_iff₀ (by norm_num), zero_mul]
    exact Int.cast_lt_zero
  unfold round53
  by_cases hneg : n < 0
  · have habs : -((n : ℚ) / 2) = (n.natAbs : ℚ) / 2 := by
      rw [show n = -(n.natAbs : ℤ) by omega]
      push_cast
      simp [neg_div]
    rw [if_pos (hsign.2 hneg), habs, hmagnitude, ← habs, neg_neg]
  · have habs : (n : ℚ) / 2 = (n.natAbs : ℚ) / 2 := by
      rw [show (n : ℚ) = ((n.natAbs : ℤ) : ℚ) by rw [Int.natAbs_of_nonneg (by omega)]]
      simp
    rw [if_neg (mt hsign.1 hneg), habs, hmagnitude]

theorem round53_intCast {n : ℤ} (hn : -2 ^ 52 < n ∧ n < 2 ^ 52) : round53 (n : ℚ) = n := by
  have hhalf := round53_half (n := 2 * n) (by omega)
  push_cast at hhalf
  rwa [mul_div_cancel_left₀ _ (by norm_num)] at hhalf

end HijriRecurrence.Binary64
