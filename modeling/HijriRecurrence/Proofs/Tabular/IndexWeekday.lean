import HijriRecurrence.Proofs.Number.RoundingOrder
import HijriRecurrence.Proofs.Tabular.Correspondence
import HijriRecurrence.Proofs.Tabular.DayShift

/-!
# The weekday of an index

The weekday of a date is taken from its rounded index.  Where the index has too few bits for the
time of day, it is the weekday of another day.  But then shifts by days are not exact either: if a
date is shifted exactly by 1, by 5 and by 6 days, its weekday is that of its day
(`outcome_weekday_of_shiftsExactly`).

* From day `2 ^ 52 - 2` on a shift by 5 or by 6 days leads to a day with an even number
  (`split_even`), so not both of them are exact.
* Before that day, a shift by one day that is exact leaves no room for the index beyond its day
  (`floor_of_split_succ`).
-/

namespace HijriRecurrence

open Binary64

namespace DayIndex

variable {index q r : ℚ} {n seconds days : ℤ}

/-! ### The steps of an index -/

theorem finite_eq_ok (h : finite q = .ok r) : r = round53 q := by
  unfold finite at h
  dsimp only at h
  split at h
  · exact (Except.ok.inj h).symm
  · cases h

/-- The index of a second of a day, step by step. -/
theorem ofDayNumber_eq_ok (h : ofDayNumber n seconds = .ok index) :
    index = round53 (round53 (round53 n - 1 / 2) + round53 (seconds / 86400)) := by
  obtain ⟨day, hday, h⟩ := Calculation.except_bind_eq_ok.1 h
  obtain ⟨part, hpart, h⟩ := Calculation.except_bind_eq_ok.1 h
  rw [finite_eq_ok hday, finite_eq_ok hpart] at h
  exact (Except.ok.inj h).symm

/-- A shift by a few days adds them. -/
theorem shift_eq_ok (hdays : -2 ^ 52 < days ∧ days < 2 ^ 52)
    (h : shift index (.whole days) = .ok q) : q = round53 (index + days) := by
  obtain ⟨rounded, hrounded, h⟩ := Calculation.except_bind_eq_ok.1 h
  have hexact : finite (days : ℚ) = .ok rounded := hrounded
  rw [finite_intCast hdays] at hexact
  obtain rfl := Except.ok.inj hexact
  exact finite_eq_ok h

/-- The day taken from an index is not before the whole day below it. -/
theorem floor_le_split (index : ℚ) : (round53 (index + 1 / 2)).floor ≤ (split index).1 := by
  unfold split
  dsimp only
  split
  · exact Int.le_add_one (Int.le_refl _)
  · exact Int.le_refl _

/-! ### Days too large for an index -/

/-- **From `2 ^ 52` on an index is taken apart into a day with an even number.** -/
theorem split_even (h : pow2 52 ≤ q) : (split (round53 q)).1 % 2 = 0 := by
  obtain ⟨j, hj⟩ := round53_add_half_even h
  have hzero : nearest (round53 (round53 0 * ((secondsPerDay : ℤ) : ℚ))) = 0 := by
    rw [round53_zero, zero_mul, round53_zero]
    exact nearest_intCast 0
  simp only [split, hj, Rat.floor_intCast, sub_self, hzero]
  rw [if_neg (by decide)]
  dsimp only
  omega

/-! ### Other days -/

section Day

variable (hn : 1 ≤ n ∧ n ≤ 2 ^ 52 - 3)

include hn

/-- Halves of days do not move, up to a day and a half later. -/
theorem round53_half_day {k : ℤ} (hk : -1 ≤ k ∧ k ≤ 4) :
    round53 ((n : ℚ) + k / 2) = n + k / 2 := by
  have hhalf := round53_half (n := 2 * n + k) (by omega)
  push_cast at hhalf
  rwa [show (2 * (n : ℚ) + k) / 2 = n + k / 2 by ring] at hhalf

/-- The start of a day does not move. -/
theorem round53_day_start : round53 ((n : ℚ) - 1 / 2) = n - 1 / 2 := by
  have hhalf := round53_half_day hn (k := -1) (by omega)
  rwa [show (n : ℚ) + (-1 : ℤ) / 2 = n - 1 / 2 by push_cast; ring] at hhalf

/-- A number rounded to between a day and its next midnight moves no further when half a day is
added. -/
theorem round53_add_half (hlow : (n : ℚ) < round53 q) (hhigh : round53 q < n + 1 / 2) :
    round53 (round53 q + 1 / 2) = round53 q + 1 / 2 := by
  have hnq : (n : ℚ) ≤ q := by
    by_contra hlt
    have hmono := round53_mono (not_le.1 hlt).le
    rw [round53_intCast (n := n) (by omega)] at hmono
    linarith
  have hpos : (0 : ℚ) < n := by exact_mod_cast (show 0 < n by omega)
  -- the unit of the day is the unit of all numbers up to the next day
  obtain ⟨k, hk⟩ : ∃ k : ℕ, log2Floor (n : ℚ) = k := by
    have hzero : (0 : ℤ) ≤ log2Floor (n : ℚ) := by
      refine le_log2Floor ?_
      rw [pow2_eq_zpow, zpow_zero]
      exact_mod_cast hn.1
    exact ⟨_, (Int.toNat_of_nonneg hzero).symm⟩
  have hbelow : pow2 k ≤ (n : ℚ) := hk ▸ log2Floor_le hpos
  have habove : (n : ℚ) < pow2 (k + 1 : ℕ) := by
    have hlt := lt_pow2_log2Floor hpos
    rwa [hk] at hlt
  have hnext : ((n : ℚ) + 1) ≤ pow2 (k + 1 : ℕ) := by
    rw [pow2_natCast] at habove ⊢
    exact_mod_cast Int.add_one_le_of_lt (Int.cast_lt.1 habove)
  have hk51 : k ≤ 51 := by
    have hlt : pow2 k < pow2 (52 : ℕ) := by
      refine hbelow.trans_lt ?_
      rw [pow2_natCast]
      exact_mod_cast (show n < 2 ^ 52 by omega)
    have := pow2_lt_pow2.1 hlt
    omega
  obtain ⟨m, hm⟩ := exists_round53_eq (hbelow.trans hnq)
  obtain ⟨j, hj⟩ := exists_pow2_eq_mul (show (k : ℤ) - 52 ≤ -1 by omega)
  rw [show pow2 (-1) = 1 / 2 by norm_num [pow2_eq_zpow]] at hj
  refine round53_eq_self (k := k) (m := m + j) (by linarith) (by push_cast at hnext; linarith)
    (by omega) ?_
  rw [hm, hj]
  push_cast
  ring

/-- When one day later is the next day, the index lies between the midnights of its day. -/
theorem index_bounds_of_split_succ (hindex : index = round53 q) (hq : (n : ℚ) - 1 / 2 ≤ q)
    (hsplit : (split (round53 (index + 1))).1 = n + 1) :
    (n : ℚ) - 1 / 2 ≤ index ∧ index < n + 1 / 2 := by
  constructor
  · have hmono := round53_mono hq
    rwa [round53_day_start hn, ← hindex] at hmono
  · by_contra hge
    have hone := round53_mono (show (n : ℚ) + (3 : ℤ) / 2 ≤ index + 1 by push_cast; linarith)
    rw [round53_half_day hn (by omega)] at hone
    have htwo := round53_mono
      (show (n : ℚ) + (4 : ℤ) / 2 ≤ round53 (index + 1) + 1 / 2 by push_cast at hone ⊢; linarith)
    rw [round53_half_day hn (by omega)] at htwo
    have hfloor : n + 2 ≤ (round53 (round53 (index + 1) + 1 / 2)).floor :=
      Rat.le_floor_iff.2 (by push_cast at htwo ⊢; linarith)
    have hle := floor_le_split (round53 (index + 1))
    omega

/-- **When one day later is the next day, the index is within its own day.** -/
theorem floor_of_split_succ (hindex : index = round53 q) (hq : (n : ℚ) - 1 / 2 ≤ q)
    (hsplit : (split (round53 (index + 1))).1 = n + 1) :
    (round53 (index + 1 / 2)).floor = n := by
  obtain ⟨hlow, hhigh⟩ := index_bounds_of_split_succ hn hindex hq hsplit
  have hfrom : n ≤ (round53 (index + 1 / 2)).floor := by
    have hmono := round53_mono (show (n : ℚ) ≤ index + 1 / 2 by linarith)
    rw [round53_intCast (n := n) (by omega)] at hmono
    exact Rat.le_floor_iff.2 hmono
  have hto : round53 (index + 1 / 2) < n + 1 := by
    rcases le_or_gt index n with hle | hgt
    · have hmono := round53_mono (show index + 1 / 2 ≤ (n : ℚ) + (1 : ℤ) / 2 by push_cast; linarith)
      rw [round53_half_day hn (by omega)] at hmono
      push_cast at hmono
      linarith
    · subst hindex
      rw [round53_add_half hn hgt hhigh]
      linarith
  have hbelow : (round53 (index + 1 / 2)).floor < n + 1 :=
    Rat.floor_lt_iff.2 (by push_cast; exact hto)
  omega

end Day

/-- The index of a day from `2 ^ 52 - 2` on is at least two and a half days below `2 ^ 52`. -/
theorem le_index_of_large (hn : 2 ^ 52 - 2 ≤ n) (hs : 0 ≤ seconds)
    (hindex : ofDayNumber n seconds = .ok index) : (2 : ℚ) ^ 52 - 5 / 2 ≤ index := by
  have hself : round53 ((2 : ℚ) ^ 52 - 5 / 2) = 2 ^ 52 - 5 / 2 := by
    have hhalf := round53_half (n := 2 ^ 53 - 5) (by norm_num)
    rwa [show ((2 ^ 53 - 5 : ℤ) : ℚ) / 2 = 2 ^ 52 - 5 / 2 by norm_num] at hhalf
  have hpart : 0 ≤ round53 ((seconds : ℚ) / 86400) :=
    round53_nonneg (div_nonneg (Int.cast_nonneg hs) (by norm_num))
  have hday : ((2 ^ 52 - 2 : ℤ) : ℚ) ≤ round53 (n : ℚ) := by
    have hmono := round53_mono (show ((2 ^ 52 - 2 : ℤ) : ℚ) ≤ n by exact_mod_cast hn)
    rwa [round53_intCast (n := 2 ^ 52 - 2) (by norm_num)] at hmono
  have hmidnight : (2 : ℚ) ^ 52 - 5 / 2 ≤ round53 (round53 (n : ℚ) - 1 / 2) := by
    have hmono := round53_mono
      (show (2 : ℚ) ^ 52 - 5 / 2 ≤ round53 (n : ℚ) - 1 / 2 by push_cast at hday; linarith)
    rwa [hself] at hmono
  rw [ofDayNumber_eq_ok hindex, ← hself]
  exact round53_mono (by linarith)

/-- **The day of an index that is shifted exactly by 1, by 5 and by 6 days.** -/
theorem floor_of_shifts (hn : 1 ≤ n) (hs : 0 ≤ seconds) (hindex : ofDayNumber n seconds = .ok index)
    (hshift : ∀ days, days = 1 ∨ days = 5 ∨ days = 6 →
      ∃ shifted, shift index (.whole days) = .ok shifted ∧ (split shifted).1 = n + days) :
    (round53 (index + 1 / 2)).floor = n := by
  have hsplit {days : ℤ} (hdays : days = 1 ∨ days = 5 ∨ days = 6) :
      (split (round53 (index + days))).1 = n + days := by
    obtain ⟨shifted, hshifted, hday⟩ := hshift days hdays
    rwa [shift_eq_ok (by omega) hshifted] at hday
  by_cases hlarge : n ≤ 2 ^ 52 - 3
  · have hpart : 0 ≤ round53 ((seconds : ℚ) / 86400) :=
      round53_nonneg (div_nonneg (Int.cast_nonneg hs) (by norm_num))
    have hone := hsplit (.inl rfl)
    rw [Int.cast_one] at hone
    refine floor_of_split_succ ⟨hn, hlarge⟩ (ofDayNumber_eq_ok hindex) ?_ hone
    rw [round53_intCast (n := n) (by omega), round53_day_start ⟨hn, hlarge⟩]
    linarith
  · -- both of the later days would have even numbers
    exfalso
    have hlow := le_index_of_large (by omega) hs hindex
    have heven {days : ℤ} (hdays : days = 5 ∨ days = 6) : (n + days) % 2 = 0 := by
      have hfive : (5 : ℚ) ≤ days := by exact_mod_cast (show 5 ≤ days by omega)
      have hwhole : pow2 52 ≤ index + days := by
        rw [show pow2 52 = 2 ^ 52 by norm_num [pow2_eq_zpow]]
        linarith
      rw [← hsplit (.inr hdays)]
      exact split_even hwhole
    have hfive := heven (.inl rfl)
    have hsix := heven (.inr rfl)
    omega

end DayIndex

namespace LunarDate

variable {ctx : Context} {answers : Answers} {d : LunarDate} {days : Int}

/-- An exact shift goes from the index of a date to one that is taken apart into the later day. -/
theorem exists_split_of_shiftsExactly (hd : d.Built ctx answers) (hv : d.variant = .tabular)
    (hdays : days ≠ 0) (h : d.ShiftsExactly ctx answers days) :
    ∃ index, (DayIndex.ofLunar ctx d).outcome answers = .ok index ∧
      DayIndex.ofDayNumber (Tabular.dayNumberOf d.toLunarDay) d.secondOfDay = .ok index ∧
      ∃ shifted, DayIndex.shift index (.whole days) = .ok shifted ∧
        (DayIndex.split shifted).1 = Tabular.dayNumberOf d.toLunarDay + days := by
  have hday := (hd.isTabular hv).isDay
  obtain ⟨e, he, hnumber⟩ := h
  rw [addDays, if_neg (by simpa using hdays)] at he
  obtain ⟨index, hindex, he⟩ := Calculation.outcome_bind_eq_ok.1 he
  obtain ⟨shifted, hshifted, he⟩ := Calculation.outcome_bind_eq_ok.1 he
  rw [Calculation.outcome_liftM] at hshifted
  refine ⟨index, hindex, ?_, shifted, hshifted, ?_⟩
  · rw [DayIndex.ofLunar, calendar_of_tabular hv, pure_bind, Calculation.outcome_liftM,
      DayIndex.ofLunarIn,
      show Tabular.calendar.dayNumber d.toLunarDay = _ from Tabular.dayNumber_of_isDay hday]
      at hindex
    exact hindex
  · rw [calendar_of_tabular hv, pure_bind, DayIndex.toLunar] at he
    obtain ⟨day, hfound, he⟩ := Calculation.outcome_bind_eq_ok.1 he
    rw [Calculation.outcome_liftM] at hfound
    have hfound : Tabular.ofDayNumber (DayIndex.split shifted).1 = .ok day := hfound
    obtain ⟨rfl, -⟩ := build_eq_ok.1 he
    obtain ⟨-, hnumber⟩ := Tabular.dayNumber_eq_ok.1 hnumber
    have hepoch : Tabular.epoch ≤ (DayIndex.split shifted).1 := by
      by_contra hlt
      rw [Tabular.ofDayNumber_of_lt (not_le.1 hlt)] at hfound
      cases hfound
    rw [Tabular.ofDayNumber_eq_dayAt hepoch] at hfound
    obtain rfl := Except.ok.inj hfound
    rwa [Tabular.dayNumberOf_dayAt hepoch] at hnumber

/-- **Where shifts by days are exact, the weekday of an index is that of the day.** -/
theorem outcome_weekday_of_shiftsExactly (hd : d.Built ctx answers) (hv : d.variant = .tabular)
    (h : ∀ days, days = 1 ∨ days = 5 ∨ days = 6 → d.ShiftsExactly ctx answers days) :
    (DayIndex.weekday ctx d).outcome answers = .ok (Tabular.dayNumberOf d.toLunarDay % 7) := by
  have hepoch := Tabular.epoch_le_dayNumberOf (hd.isTabular hv).isDay
  have hpos : 1 ≤ Tabular.epoch := by decide
  obtain ⟨index, hindex, hnumber, -⟩ :=
    exists_split_of_shiftsExactly hd hv (by norm_num) (h 1 (.inl rfl))
  have hshift (days : Int) (hdays : days = 1 ∨ days = 5 ∨ days = 6) :
      ∃ shifted, DayIndex.shift index (.whole days) = .ok shifted ∧
        (DayIndex.split shifted).1 = Tabular.dayNumberOf d.toLunarDay + days := by
    obtain ⟨index', hindex', -, hsplit⟩ :=
      exists_split_of_shiftsExactly hd hv (by omega) (h days hdays)
    obtain rfl := Except.ok.inj (hindex.symm.trans hindex')
    exact hsplit
  rw [DayIndex.weekday, Calculation.outcome_bind_ok hindex,
    DayIndex.floor_of_shifts (by omega) (secondOfDay_range hd.inRange).1 hnumber hshift]
  rfl

end LunarDate

end HijriRecurrence
