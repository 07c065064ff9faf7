import HijriRecurrence.Proofs.Number.Rounding

/-!
# Rounding and order

Rounding to 53 bits keeps the order of numbers (`round53_mono`).  So a bound that does not move
itself is a bound of whatever is rounded below it.

The unit of a number from `2 ^ k` on is at least `2 ^ (k - 52)` (`le_log2Floor`), which has three
uses:

* `exists_round53_eq` — what is rounded is a whole number of such units;
* `round53_eq_self` — whole numbers of them below the next power of two do not move;
* `round53_add_half_even` — from `2 ^ 52` on half a unit leads to an even number.
-/

namespace HijriRecurrence.Binary64

variable {p q : ℚ} {k m : ℤ}

/-! ### The nearest integer -/

theorem nearest_mono (h : p ≤ q) : nearest p ≤ nearest q := by
  have hfloor : p.floor ≤ q.floor := Rat.floor_monotone h
  unfold nearest
  dsimp only
  rcases Int.lt_or_eq_of_le hfloor with hlt | heq
  · split_ifs <;> omega
  · rw [heq]
    split_ifs <;> first | omega | (exfalso; linarith)

/-! ### The power of two below a number -/

/-- The power of two found for a number is the last one not above it. -/
theorem lt_pow2_log2Floor (hq : 0 < q) : q < pow2 (log2Floor q + 1) := by
  unfold log2Floor
  dsimp only
  split
  · have hlow : (q.num : ℚ) < 2 ^ (q.num.natAbs.log2 + 1) := by
      have hnat := Nat.lt_log2_self (n := q.num.natAbs)
      have hint : (q.num.natAbs : ℤ) = q.num := Int.natAbs_of_nonneg (Rat.num_nonneg.2 hq.le)
      rw [← hint]
      exact_mod_cast hnat
    have hhigh : (2 : ℚ) ^ q.den.log2 ≤ q.den := by
      exact_mod_cast Nat.log2_self_le q.den_pos.ne'
    have hden : (0 : ℚ) < 2 ^ q.den.log2 := by positivity
    rw [pow2_eq_zpow, show (q.num.natAbs.log2 : ℤ) - q.den.log2 + 1 =
      ((q.num.natAbs.log2 + 1 : ℕ) : ℤ) - (q.den.log2 : ℕ) by push_cast; ring,
      zpow_sub₀ (by norm_num), zpow_natCast, zpow_natCast]
    calc q = q.num / q.den := (Rat.num_div_den q).symm
      _ ≤ q.num / 2 ^ q.den.log2 :=
          div_le_div_of_nonneg_left (by exact_mod_cast Rat.num_nonneg.2 hq.le) hden hhigh
      _ < 2 ^ (q.num.natAbs.log2 + 1) / 2 ^ q.den.log2 := div_lt_div_of_pos_right hlow hden
  · rename_i habove
    rw [sub_add_cancel]
    exact not_le.1 habove

theorem le_log2Floor (h : pow2 k ≤ q) : k ≤ log2Floor q := by
  have hlt := pow2_lt_pow2.1 (h.trans_lt (lt_pow2_log2Floor ((pow2_pos k).trans_le h)))
  omega

theorem le_unitExponent (h : pow2 k ≤ q) : k - 52 ≤ unitExponent q := by
  have hlog := le_log2Floor h
  unfold unitExponent
  omega

/-- Powers of two are whole numbers of smaller ones. -/
theorem exists_pow2_eq_mul {d e : ℤ} (h : d ≤ e) : ∃ n : ℤ, pow2 e = n * pow2 d := by
  obtain ⟨j, rfl⟩ := Int.le.dest h
  refine ⟨2 ^ j, ?_⟩
  rw [pow2_eq_zpow, pow2_eq_zpow, zpow_add₀ (by norm_num), zpow_natCast]
  push_cast
  ring

/-! ### Whole numbers of units -/

/-- The rounding of a positive number, by its unit. -/
theorem round53_of_pos (hq : 0 < q) :
    round53 q = nearest (q / pow2 (unitExponent q)) * pow2 (unitExponent q) := by
  rw [round53, if_neg (not_lt.2 hq.le), roundMagnitude, if_neg hq.ne']

/-- **What is rounded is a whole number of units.** -/
theorem exists_round53_eq (h : pow2 k ≤ q) : ∃ m : ℤ, round53 q = m * pow2 (k - 52) := by
  obtain ⟨n, hn⟩ := exists_pow2_eq_mul (le_unitExponent h)
  rw [round53_of_pos ((pow2_pos k).trans_le h), hn]
  refine ⟨nearest (q / (n * pow2 (k - 52))) * n, ?_⟩
  push_cast
  ring

/-- **Whole numbers of units below the next power of two do not move.** -/
theorem round53_eq_self (hq : 0 < q) (hlt : q < pow2 (k + 1)) (hk : -1022 ≤ k)
    (h : q = m * pow2 (k - 52)) : round53 q = q := by
  have hunit := unitExponent_le hq hlt (by omega)
  obtain ⟨n, hn⟩ := exists_pow2_eq_mul (show unitExponent q ≤ k - 52 by omega)
  have hwhole : q / pow2 (unitExponent q) = ((m * n : ℤ) : ℚ) := by
    rw [div_eq_iff (pow2_pos _).ne']
    push_cast
    rw [mul_assoc, ← hn]
    exact h
  rw [round53, if_neg (not_lt.2 hq.le), roundMagnitude_eq_self hwhole]

/-! ### Order -/

theorem round53_zero : round53 0 = 0 := by
  simp [round53, roundMagnitude]

theorem roundMagnitude_eq_round53 (hq : 0 ≤ q) : roundMagnitude q = round53 q := by
  rw [round53, if_neg (not_lt.2 hq)]

/-- A number below a whole number of its units is not rounded beyond it. -/
theorem round53_le_of_le (hq : 0 < q) (h : q ≤ m * pow2 (unitExponent q)) :
    round53 q ≤ m * pow2 (unitExponent q) := by
  rw [round53_of_pos hq]
  refine mul_le_mul_of_nonneg_right ?_ (pow2_pos _).le
  have hnearest := nearest_mono ((div_le_iff₀ (pow2_pos _)).2 h)
  rw [nearest_intCast] at hnearest
  exact_mod_cast hnearest

theorem le_round53_of_le (hq : 0 < q) (h : m * pow2 (unitExponent q) ≤ q) :
    m * pow2 (unitExponent q) ≤ round53 q := by
  rw [round53_of_pos hq]
  refine mul_le_mul_of_nonneg_right ?_ (pow2_pos _).le
  have hnearest := nearest_mono ((le_div_iff₀ (pow2_pos _)).2 h)
  rw [nearest_intCast] at hnearest
  exact_mod_cast hnearest

theorem round53_nonneg (hq : 0 ≤ q) : 0 ≤ round53 q := by
  rcases hq.lt_or_eq with hpos | rfl
  · simpa using le_round53_of_le (m := 0) hpos (by simpa using hpos.le)
  · rw [round53_zero]

theorem round53_mono_of_pos (hp : 0 < p) (h : p ≤ q) : round53 p ≤ round53 q := by
  have hq : 0 < q := hp.trans_le h
  have hlog : log2Floor p ≤ log2Floor q := le_log2Floor ((log2Floor_le hp).trans h)
  by_cases hunit : unitExponent p = unitExponent q
  · rw [round53_of_pos hp, round53_of_pos hq, hunit]
    refine mul_le_mul_of_nonneg_right ?_ (pow2_pos _).le
    exact_mod_cast nearest_mono (div_le_div_of_nonneg_right h (pow2_pos _).le)
  · -- a power of two lies between the numbers, and neither moves across it
    have hlt : log2Floor p < log2Floor q := by
      unfold unitExponent at hunit
      omega
    have hbetween : p ≤ pow2 (log2Floor q) :=
      (lt_pow2_log2Floor hp).le.trans (pow2_le_pow2.2 (by omega))
    have hlow : unitExponent p ≤ log2Floor q ∧ unitExponent q ≤ log2Floor q := by
      unfold unitExponent at hunit ⊢
      omega
    obtain ⟨m, hm⟩ := exists_pow2_eq_mul hlow.1
    obtain ⟨n, hn⟩ := exists_pow2_eq_mul hlow.2
    calc round53 p ≤ m * pow2 (unitExponent p) := round53_le_of_le hp (hm ▸ hbetween)
      _ = n * pow2 (unitExponent q) := hm.symm.trans hn
      _ ≤ round53 q := le_round53_of_le hq (hn ▸ log2Floor_le hq)

/-- **Rounding keeps the order of numbers.** -/
theorem round53_mono (h : p ≤ q) : round53 p ≤ round53 q := by
  have hneg {r : ℚ} (hr : r < 0) : round53 r = -round53 (-r) := by
    rw [round53, if_pos hr, roundMagnitude_eq_round53 (by linarith)]
  rcases lt_or_ge p 0 with hp | hp
  · rcases lt_or_ge q 0 with hq | hq
    · rw [hneg hp, hneg hq]
      exact neg_le_neg (round53_mono_of_pos (by linarith) (neg_le_neg h))
    · have hbelow := round53_nonneg (show 0 ≤ -p by linarith)
      have habove := round53_nonneg hq
      rw [hneg hp]
      linarith
  · rcases hp.lt_or_eq with hpos | rfl
    · exact round53_mono_of_pos hpos h
    · rw [round53_zero]
      exact round53_nonneg h

/-! ### Ties -/

/-- **From `2 ^ 52` on a number rounded, and rounded again with a half added to it, is even.** -/
theorem round53_add_half_even (h : pow2 52 ≤ q) :
    ∃ j : ℤ, round53 (round53 q + 1 / 2) = ((2 * j : ℤ) : ℚ) := by
  have hround : pow2 52 ≤ round53 q := by
    have hself := round53_eq_self (k := 52) (m := 2 ^ 52) (pow2_pos 52)
      (pow2_lt_pow2.2 (by norm_num)) (by norm_num) (by norm_num [pow2_eq_zpow])
    rw [← hself]
    exact round53_mono h
  obtain ⟨n, hn⟩ := exists_round53_eq h
  have hone : pow2 (52 - 52) = 1 := by norm_num [pow2_eq_zpow]
  rw [hone, mul_one] at hn
  have hle : pow2 52 ≤ round53 q + 1 / 2 := by linarith
  have hpos : 0 < round53 q + 1 / 2 := (pow2_pos 52).trans_le hle
  have hunit := le_unitExponent hle
  rw [round53_of_pos hpos]
  rcases Int.lt_or_eq_of_le hunit with hlt | heq
  · obtain ⟨i, hi⟩ := exists_pow2_eq_mul (show 1 ≤ unitExponent (round53 q + 1 / 2) by omega)
    refine ⟨nearest ((round53 q + 1 / 2) / pow2 (unitExponent (round53 q + 1 / 2))) * i, ?_⟩
    rw [hi, show pow2 1 = 2 by norm_num [pow2_eq_zpow]]
    push_cast
    ring
  · rw [← heq, hone, div_one, mul_one, hn]
    have hlow : n ≤ ((n : ℚ) + 1 / 2).floor := Rat.le_floor_iff.2 (by linarith)
    have hhigh : ((n : ℚ) + 1 / 2).floor < n + 1 := Rat.floor_lt_iff.2 (by push_cast; linarith)
    have hfloor : ((n : ℚ) + 1 / 2).floor = n := by omega
    refine ⟨nearest ((n : ℚ) + 1 / 2) / 2, ?_⟩
    congr 1
    unfold nearest
    dsimp only
    rw [hfloor, add_sub_cancel_left, if_neg (lt_irrefl _), if_neg (lt_irrefl _)]
    split <;> omega

end HijriRecurrence.Binary64
