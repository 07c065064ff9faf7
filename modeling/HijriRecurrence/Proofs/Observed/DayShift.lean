import HijriRecurrence.Proofs.Calendar.CivilOrder
import HijriRecurrence.Proofs.Observed.Table
import HijriRecurrence.Proofs.Rule.Normalized

/-!
# Shifts by days in the observed calendar

Whatever a host answers, a shift by days that succeeds ends on the day that the host has for the
shifted number (`LunarDate.hasOn_of_addDays`): shifts to numbers of civil dates are exact, and a
shift that leaves the exact range does not find a civil date, however far off it is rounded
(`DayIndex.le_split`).  The host needs no table for this.  It only has to be in order, so that the
number of a day is not in doubt.
-/

namespace HijriRecurrence

open Binary64

namespace DayIndex

variable {index shifted : ℚ} {n seconds days : ℤ}

/-- What a number is rounded to, where it is finite. -/
theorem eq_round53_of_finite {q r : ℚ} (h : finite q = .ok r) : r = round53 q := by
  unfold finite at h
  dsimp only at h
  split at h
  · exact (Except.ok.inj h).symm
  · cases h

/-- A large index has a large day number. -/
theorem le_split (h : 2 ^ 28 ≤ index) : 2 ^ 27 ≤ (split index).1 := by
  have hround := half_le_round53 (q := index + 1 / 2) (by linarith)
  have hfloor : 2 ^ 27 ≤ (round53 (index + 1 / 2)).floor := by
    rw [Rat.le_floor_iff]
    push_cast
    linarith
  unfold split
  dsimp only
  split
  · exact hfloor.trans (Int.le_add_one (Int.le_refl _))
  · exact hfloor

/-- A shift beyond the range of exact shifts leads to a number beyond all civil dates. -/
theorem lt_split_of_shift (h : Marks index n seconds (1 / 2 ^ 19)) (hn : 0 ≤ n ∧ n < 2 ^ 23)
    (hs : 0 ≤ seconds) (hfar : numberBound ≤ n + days)
    (hshift : shift index (.whole days) = .ok shifted) : 2 ^ 27 ≤ (split shifted).1 := by
  obtain ⟨r, hr, hshift⟩ := Calculation.except_bind_eq_ok.1 hshift
  obtain rfl := eq_round53_of_finite hr
  obtain rfl := eq_round53_of_finite hshift
  unfold numberBound at hfar
  have hdays : (2 ^ 31 : ℚ) ≤ days := by
    have hcast : (2 ^ 31 : ℤ) ≤ days := by omega
    exact_mod_cast hcast
  have hindex : -1 ≤ index := by
    have hn0 : (0 : ℚ) ≤ n := Int.cast_nonneg hn.1
    have hs0 : (0 : ℚ) ≤ seconds := Int.cast_nonneg hs
    have hnear := (abs_le.1 h.near).1
    linarith
  have hrounded := half_le_round53 (q := days) (by linarith)
  have hsum := half_le_round53 (q := index + round53 days) (by linarith)
  exact le_split (by linarith)

/-- The numbers of civil dates are far within the range of exact shifts. -/
theorem number_bounds (hn : (CivilDate.ofDayNumber n).Valid) : 0 ≤ n ∧ n < 2 ^ 23 := by
  have hrange := CivilDate.dayNumber_bounds_of_valid hn
  rw [CivilDate.dayNumber_ofDayNumber] at hrange
  unfold civilEpoch lastCivilOrdinal at hrange
  omega

/-- **A shift from a civil date forward that ends on a civil date is exact.** -/
theorem split_of_shift (h : Marks index n seconds (1 / 2 ^ 19))
    (hn : (CivilDate.ofDayNumber n).Valid) (hs : 0 ≤ seconds ∧ seconds < 86400) (hdays : 0 ≤ days)
    (hshift : shift index (.whole days) = .ok shifted)
    (hvalid : (CivilDate.ofDayNumber (split shifted).1).Valid) :
    (split shifted).1 = n + days := by
  have hrange := number_bounds hn
  have hrange' := number_bounds hvalid
  by_cases hfar : numberBound ≤ n + days
  · have hlarge := lt_split_of_shift h hrange hs.1 hfar hshift
    omega
  · have hsmall : 0 ≤ n + days ∧ n + days < numberBound := ⟨by omega, by omega⟩
    have hbound : 0 ≤ n ∧ n < numberBound := ⟨hrange.1, by omega⟩
    obtain ⟨found, hfound, hmarks⟩ := shift_spec h hs hbound hsmall
    obtain rfl : found = shifted := Except.ok.inj (hfound.symm.trans hshift)
    rw [split_of_marks hmarks hsmall hs]

end DayIndex

/-! ### Days on numbers -/

/-- A host has a day on the civil date of a number. -/
def Host.HasOn (host : Host) (n : ℤ) (d : LunarDay) : Prop :=
  (CivilDate.ofDayNumber n).Valid ∧ host (CivilDate.ofDayNumber n) = .ok d

variable {host : Host} {a b : LunarDay} {n m : ℤ}

/-- A host in order has days in the order of their numbers. -/
theorem Host.IsOrdered.lt_iff_of_hasOn (hhost : host.IsOrdered) (ha : host.HasOn n a)
    (hb : host.HasOn m b) : a < b ↔ n < m := by
  rw [hhost.lt_iff ha.1 hb.1 ha.2 hb.2, ← CivilDate.dayNumber_lt_iff_before ha.1 hb.1,
    CivilDate.dayNumber_ofDayNumber, CivilDate.dayNumber_ofDayNumber]

theorem Host.IsOrdered.le_iff_of_hasOn (hhost : host.IsOrdered) (ha : host.HasOn n a)
    (hb : host.HasOn m b) : a ≤ b ↔ n ≤ m := by
  rw [LunarDay.le_def, hhost.lt_iff_of_hasOn hb ha, Int.not_lt]

/-- A host that keeps a table has its days on their numbers. -/
theorem Host.Keeps.hasOn {t : MonthTable} (hk : host.Keeps t) {d : LunarDay} (h : t.IsDay d) :
    host.HasOn (t.numberOf d) d :=
  ⟨Observed.valid_of_isDay hk h, (hk.host_eq _ d h.1 h.2.1).2 ⟨h, rfl⟩⟩

namespace Observed

variable {d : LunarDay}

/-- A day that has a number has a civil date with this number. -/
theorem toCivil_of_dayNumber (h : (calendar host).dayNumber d = .ok n) :
    ∃ g, toCivil host d = .ok g ∧ g.dayNumber = n := by
  have hmap : (toCivil host d).map CivilDate.dayNumber = .ok n := h
  cases hcivil : toCivil host d with
  | error e =>
    rw [hcivil] at hmap
    cases hmap
  | ok g =>
    rw [hcivil] at hmap
    exact ⟨g, rfl, Except.ok.inj hmap⟩

/-- The day of a number is the host's, where the civil date of the number exists. -/
theorem ofDayNumber_eq_ok : (calendar host).ofDayNumber n = .ok d ↔ host.HasOn n d := by
  refine Iff.trans (Calculation.except_bind_eq_ok (x := civilOfDayNumber n)) ?_
  constructor
  · rintro ⟨g, hg, hday⟩
    obtain ⟨hvalid, rfl⟩ := civilOfDayNumber_eq_ok.1 hg
    rw [Host.HasOn, CivilDate.ofDayNumber_dayNumber hvalid]
    exact ⟨hvalid, ofCivil_eq_ok.1 hday⟩
  · rintro ⟨hvalid, hday⟩
    exact ⟨_, civilOfDayNumber_eq_ok.2 ⟨hvalid, CivilDate.dayNumber_ofDayNumber n⟩,
      ofCivil_eq_ok.2 hday⟩

end Observed

namespace LunarDate

variable {ctx : Context} {answers : Answers} {d e : LunarDate} {days : ℤ}

/-- **A shift forward that succeeds ends on the host's day of the shifted number.** -/
theorem hasOn_of_addDays (hserve : (ctx.serve d.variant).outcome answers =
      .ok (Observed.calendar host)) (hhost : host.IsOrdered) (hr : d.InRange)
    (hon : host.HasOn n d.toLunarDay) (hdays : 0 ≤ days)
    (h : (d.addDays ctx (.whole days)).outcome answers = .ok e) :
    host.HasOn (n + days) e.toLunarDay := by
  obtain ⟨hvalid, hn⟩ := hon
  by_cases hzero : days = 0
  · rw [hzero, addDays_zero] at h
    obtain rfl := Except.ok.inj h
    rw [hzero, Int.add_zero]
    exact ⟨hvalid, hn⟩
  have hs := secondOfDay_range hr
  rw [addDays, if_neg (by simpa using hzero)] at h
  obtain ⟨index, hindex, hshift⟩ := Calculation.outcome_bind_eq_ok.1 h
  obtain ⟨shifted, hshifted, hfound⟩ := Calculation.outcome_bind_eq_ok.1 hshift
  rw [Calculation.outcome_liftM] at hshifted
  rw [calendar, Calculation.outcome_bind_ok hserve] at hfound
  obtain ⟨day, hday, hbuild⟩ := Calculation.outcome_bind_eq_ok.1 hfound
  rw [Calculation.outcome_liftM] at hday
  obtain ⟨rfl, -⟩ := build_eq_ok.1 hbuild
  obtain ⟨hdayValid, hdayHost⟩ := Observed.ofDayNumber_eq_ok.1 hday
  -- the index is that of the number, because the host has the day on one date only
  rw [DayIndex.ofLunar, calendar, Calculation.outcome_bind_ok hserve, Calculation.outcome_liftM]
    at hindex
  obtain ⟨number, hnumber, hindex⟩ := Calculation.except_bind_eq_ok.1 hindex
  obtain ⟨g, hg, rfl⟩ := Observed.toCivil_of_dayNumber hnumber
  obtain ⟨hgValid, hgHost⟩ := Observed.host_of_toCivil hg
  rw [hhost.injective hgValid hvalid hgHost hn, CivilDate.dayNumber_ofDayNumber] at hindex
  have hbound : 0 ≤ n ∧ n < DayIndex.numberBound :=
    ⟨(DayIndex.number_bounds hvalid).1, (DayIndex.number_bounds hvalid).2.trans (by decide)⟩
  obtain ⟨known, hknown, hmarks⟩ := DayIndex.ofDayNumber_spec hbound hs
  obtain rfl : known = index := Except.ok.inj (hknown.symm.trans hindex)
  rw [← DayIndex.split_of_shift hmarks hvalid hs hdays hshifted hdayValid]
  exact ⟨hdayValid, hdayHost⟩

end LunarDate

end HijriRecurrence
