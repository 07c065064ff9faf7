import HijriRecurrence.Proofs.Tabular.MonthDays
import Mathlib.Data.List.Sort

/-!
# The weekdays of a month by their position

The days of a month that fall on one weekday are seven days apart (`weekdaysOfMonth_eq`).  So the
position of a day among them can be told from the day alone: from the front it is a seventh of the
day, rounded up, and from the back a seventh of the days left (`nth?_weekdaysOfMonth`).
-/

namespace HijriRecurrence.Tabular

/-- The first day of a month on a weekday. -/
def firstOnWeekday (first weekday : Int) : Int := (weekday - first) % 7 + 1

/-- A month is scanned from its first day to its last. -/
theorem pairwise_weekdaysOfMonth (first length weekday : Int) :
    (LunarDate.weekdaysOfMonth first length weekday).Pairwise (· < ·) := by
  unfold LunarDate.weekdaysOfMonth
  apply List.Pairwise.filter
  apply List.pairwise_map.2
  exact List.pairwise_lt_range.imp fun h => by omega

/-- The days of a month on a weekday are seven days apart. -/
theorem weekdaysOfMonth_eq {first length weekday : Int} (hlength : 7 ≤ length)
    (hw : 0 ≤ weekday ∧ weekday < 7) :
    LunarDate.weekdaysOfMonth first length weekday =
      (List.range ((length - firstOnWeekday first weekday) / 7 + 1).toNat).map
        fun (i : Nat) => firstOnWeekday first weekday + 7 * (i : Int) := by
  have hscan := pairwise_weekdaysOfMonth first length weekday
  have hstep : ((List.range ((length - firstOnWeekday first weekday) / 7 + 1).toNat).map
      fun (i : Nat) => firstOnWeekday first weekday + 7 * (i : Int)).Pairwise (· < ·) := by
    refine List.pairwise_map.2 ?_
    exact List.pairwise_lt_range.imp fun h => by omega
  refine hscan.eq_of_mem_iff hstep fun day => ?_
  rw [mem_weekdaysOfMonth, List.mem_map]
  unfold firstOnWeekday
  constructor
  · rintro ⟨hday, hweekday⟩
    refine ⟨((day - ((weekday - first) % 7 + 1)) / 7).toNat, List.mem_range.2 ?_, ?_⟩
    · omega
    · omega
  · rintro ⟨i, hi, rfl⟩
    have hi := List.mem_range.1 hi
    omega

/-- **The day at a position among the same weekdays of a month.**  No day falls on a weekday whose
number is not from 0 to 6. -/
theorem nth?_weekdaysOfMonth {first length weekday n day : Int} (hlength : 7 ≤ length) :
    LunarDate.nth? (LunarDate.weekdaysOfMonth first length weekday) n = some day ↔
      (1 ≤ day ∧ day ≤ length) ∧ (first + day - 1) % 7 = weekday ∧
        (0 < n ∧ (day + 6) / 7 = n ∨ n < 0 ∧ (length - day + 1 + 6) / 7 = -n) := by
  by_cases hw : 0 ≤ weekday ∧ weekday < 7
  swap
  · refine iff_of_false (fun h => ?_) (fun h => by omega)
    have hweekday := (mem_weekdaysOfMonth.1 (mem_of_nth? h)).2
    omega
  rw [weekdaysOfMonth_eq hlength hw]
  rw [LunarDate.nth?, firstOnWeekday, List.length_map, List.length_range]
  obtain ⟨lead, hlead⟩ : ∃ lead, (weekday - first) % 7 = lead := ⟨_, rfl⟩
  obtain ⟨count, hcount⟩ : ∃ count, ((length - (lead + 1)) / 7 + 1).toNat = count := ⟨_, rfl⟩
  rw [hlead, hcount]
  by_cases hout : n = 0 ∨ count < n.natAbs
  · rw [if_pos hout]
    constructor
    · exact fun h => absurd h (by simp)
    · rintro ⟨hday, hweekday, hposition⟩
      omega
  · rw [if_neg hout]
    by_cases hpos : 0 < n
    · rw [if_pos hpos, List.getElem?_map, List.getElem?_range (by omega), Option.map_some,
        Option.some.injEq]
      constructor
      · intro h
        omega
      · rintro ⟨hday, hweekday, hposition⟩
        omega
    · rw [if_neg hpos, List.getElem?_map, List.getElem?_range (by omega), Option.map_some,
        Option.some.injEq]
      constructor
      · intro h
        omega
      · rintro ⟨hday, hweekday, hposition⟩
        omega

end HijriRecurrence.Tabular
