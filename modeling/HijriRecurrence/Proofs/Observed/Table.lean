import HijriRecurrence.Proofs.Calendar.MonthTable
import HijriRecurrence.Proofs.Observed.Search

/-!
# Hosts that keep a month table

A host keeps a month table (`Host.Keeps`) when it has the days of the table on the dates of their
numbers and nowhere else, each near where it is expected.  The observed calendar of such a host
finds its way back from the days of the table (`toCivil_of_isDay`), tells the lengths of its months
by looking for a thirtieth day (`probeMonth_of_has`), and so keeps the table itself (`keeps`).
-/

namespace HijriRecurrence

open LunarDate MonthTable

/-- A host has the days of the months of a table on the dates of their numbers, and on no others.
Each of their days is looked for in a window that has its date, and so is a thirtieth. -/
structure Host.Keeps (host : Host) (t : MonthTable) : Prop where
  host_eq : ∀ n d, 1 ≤ d.month ∧ d.month ≤ 12 → t.Has (monthIndex d) →
    (host (CivilDate.ofDayNumber n) = .ok d ↔ t.IsDay d ∧ t.numberOf d = n)
  near : ∀ d : LunarDay, 1 ≤ d.month ∧ d.month ≤ 12 → t.Has (monthIndex d) →
    1 ≤ d.day ∧ d.day ≤ 30 → ∃ expected, Observed.estimate d = .ok expected ∧
      Observed.InWindow expected (t.numberOf d - civilEpoch) ∧
        expected + Observed.searchWindow ≤ lastCivilOrdinal

namespace Observed

variable {host : Host} {t : MonthTable} {d : LunarDay} {year month n : Int}

theorem inShape_of_has (hm : 1 ≤ d.month ∧ d.month ≤ 12) (h : t.Has (monthIndex d))
    (hd : 1 ≤ d.day ∧ d.day ≤ 30) : InShape d := by
  have hfirst := t.first_nonneg
  have hlow := h.1
  unfold monthIndex at hlow
  exact ⟨by omega, hm, hd⟩

section Keeps

variable (hk : host.Keeps t)

include hk

/-- The numbers of the days of a table are those of civil dates that exist. -/
theorem number_bounds (h : t.IsDay d) :
    civilEpoch < t.numberOf d ∧ t.numberOf d ≤ civilEpoch + lastCivilOrdinal := by
  obtain ⟨expected, -, ⟨hpos, -, hhigh⟩, hend⟩ := hk.near d h.1 h.2.1 ⟨h.2.2.1, h.day_le⟩
  omega

/-- The civil date of the number of a day exists. -/
theorem valid_of_isDay (h : t.IsDay d) : (CivilDate.ofDayNumber (t.numberOf d)).Valid := by
  obtain ⟨hlow, hhigh⟩ := CivilDate.year_ofDayNumber_bounds (number_bounds hk h)
  exact CivilDate.valid_ofDayNumber hlow hhigh

/-- **The civil date of a day of the table is that of its number.** -/
theorem toCivil_of_isDay (h : t.IsDay d) :
    toCivil host d = .ok (CivilDate.ofDayNumber (t.numberOf d)) := by
  have hday : 1 ≤ d.day ∧ d.day ≤ 30 := ⟨h.2.2.1, h.day_le⟩
  obtain ⟨expected, hexpected, hwindow, hend⟩ := hk.near d h.1 h.2.1 hday
  have hhost : host (CivilDate.ofOrdinal (t.numberOf d - civilEpoch)) = .ok d := by
    rw [CivilDate.ofOrdinal, Int.sub_add_cancel]
    exact (hk.host_eq _ d h.1 h.2.1).2 ⟨h, rfl⟩
  rw [toCivil_of_inShape (inShape_of_has h.1 h.2.1 hday)]
  obtain ⟨g, hg⟩ := exists_of_search hexpected hend hwindow hhost
  obtain ⟨-, m, -, -, -, rfl, hfound⟩ := host_of_search hg
  rw [hg, CivilDate.ofOrdinal, ((hk.host_eq _ d h.1 h.2.1).1 hfound).2]

/-- A thirtieth day that a month of the table lacks is not found. -/
theorem toCivil_of_not_isDay (hm : 1 ≤ d.month ∧ d.month ≤ 12) (h : t.Has (monthIndex d))
    (hd : 1 ≤ d.day ∧ d.day ≤ 30) (hnot : ¬t.IsDay d) :
    toCivil host d = .error (.noCivilDay d) := by
  obtain ⟨expected, hexpected, -, hend⟩ := hk.near d hm h hd
  rw [toCivil_of_inShape (inShape_of_has hm h hd)]
  refine search_eq_error hexpected hend fun m _ hfound => hnot ?_
  exact ((hk.host_eq _ d hm h).1 hfound).1

/-- **The length of a month of the table is found.** -/
theorem probeMonth_of_has (hm : 1 ≤ month ∧ month ≤ 12)
    (h : t.Has ((year - 1) * 12 + (month - 1))) :
    probeMonth host year month = .ok (t.monthDays ((year - 1) * 12 + (month - 1))) := by
  have hlength := monthDays_bounds h
  unfold probeMonth
  by_cases hfull : t.monthDays ((year - 1) * 12 + (month - 1)) = 30
  · have hday : t.IsDay ⟨year, month, 30⟩ := (isDay_mk hm).2 ⟨h, by omega, by omega⟩
    rw [toCivil_of_isDay hk hday, hfull]
  · have hday : t.IsDay ⟨year, month, 29⟩ := (isDay_mk hm).2 ⟨h, by omega, by omega⟩
    have hnot : ¬t.IsDay ⟨year, month, 30⟩ := by
      rw [isDay_mk hm]
      omega
    have hthirtieth : (1 : Int) ≤ 30 ∧ (30 : Int) ≤ 30 := by decide
    rw [toCivil_of_not_isDay hk (d := ⟨year, month, 30⟩) hm h hthirtieth hnot,
      toCivil_of_isDay hk hday,
      show t.monthDays ((year - 1) * 12 + (month - 1)) = 29 by omega]
    rfl

theorem outcome_monthLength_of_has (hm : 1 ≤ month ∧ month ≤ 12)
    (h : t.Has ((year - 1) * 12 + (month - 1))) :
    (monthLength year month).outcome (answers host) =
      .ok (.whole (t.monthDays ((year - 1) * 12 + (month - 1)))) := by
  rw [outcome_monthLength hm, probeMonth_of_has hk hm h]
  rfl

/-- The lengths of months in a row add up to what lies between their starts. -/
theorem outcome_addMonths_of_hasYear (h : t.HasYear year) {month count : Nat} (total : Int)
    (hlow : 1 ≤ month) (hhigh : month + count ≤ 13) :
    (addMonths (monthLength year) (.whole total)
        ((List.range' month count).map Int.ofNat)).outcome (answers host) =
      .ok (.whole (total + (t.start ((year - 1) * 12 + (month - 1) + count) -
        t.start ((year - 1) * 12 + (month - 1))))) := by
  induction count generalizing month total with
  | zero => simp [addMonths]
  | succ count ih =>
    have hmonth : (1 : Int) ≤ (month : Int) ∧ (month : Int) ≤ 12 := by omega
    have hlength := outcome_monthLength_of_has hk hmonth (h.has hmonth)
    rw [List.range'_succ, List.map_cons, addMonths, Int.ofNat_eq_natCast,
      Calculation.outcome_bind_ok hlength,
      Quantity.whole_plus_whole, Calculation.outcome_bind_ok (Calculation.outcome_liftM _),
      ih _ (by omega) (by omega)]
    have hnext : (year - 1) * 12 + ((month + 1 : Nat) - 1) = (year - 1) * 12 + (month - 1) + 1 := by
      omega
    have hend : (year - 1) * 12 + (month - 1) + 1 + (count : Int) =
        (year - 1) * 12 + (month - 1) + (count + 1 : Nat) := by omega
    rw [hnext, hend, monthDays]
    congr 2
    omega

theorem outcome_yearLength_of_hasYear (h : t.HasYear year) :
    ((calendar host).yearLength year).outcome (answers host) =
      .ok (.whole (t.start ((year - 1) * 12 + 12) - t.start ((year - 1) * 12))) := by
  have hmonths : allMonths = (List.range' 1 12).map Int.ofNat := by decide
  have hsum := outcome_addMonths_of_hasYear hk h 0 (Nat.le_refl 1) (by decide : 1 + 12 ≤ 13)
  show (sumMonths (monthLength year) allMonths).outcome (answers host) = _
  rw [sumMonths, hmonths, hsum]
  simp

/-- **The observed calendar of a host that keeps a table keeps it too.** -/
theorem keeps : (calendar host).Keeps (answers host) t where
  monthLength _ _ hm h := outcome_monthLength_of_has hk hm h
  yearLength _ h := outcome_yearLength_of_hasYear hk h
  dayNumber d h := by
    show (toCivil host d).map CivilDate.dayNumber = _
    rw [toCivil_of_isDay hk h]
    exact congrArg Except.ok (CivilDate.dayNumber_ofDayNumber _)
  ofDayNumber d h := by
    have hcivil : civilOfDayNumber (t.numberOf d) = .ok (CivilDate.ofDayNumber (t.numberOf d)) :=
      civilOfDayNumber_eq_ok.2 ⟨valid_of_isDay hk h, CivilDate.dayNumber_ofDayNumber _⟩
    have hhost := (hk.host_eq _ d h.1 h.2.1).2 ⟨h, rfl⟩
    show (do ofCivil host (← civilOfDayNumber (t.numberOf d))) = _
    rw [hcivil]
    show ofCivil host (CivilDate.ofDayNumber (t.numberOf d)) = _
    rw [ofCivil, hhost]
  bounds d h := by
    have hbounds := number_bounds hk h
    unfold civilEpoch lastCivilOrdinal at hbounds
    have hsmall : (5373484 : Int) < DayIndex.numberBound := by decide
    omega

end Keeps

end Observed

end HijriRecurrence
