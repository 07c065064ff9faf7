import HijriRecurrence.Calendar.UmmAlQura
import HijriRecurrence.Proofs.Observed.Estimate
import HijriRecurrence.Proofs.Observed.Table

/-!
# The Umm al-Qura tables are a month table

The lengths of all months of the tables stand one after the other (`allLengths`), and the days
before each of them are a sum (`start`).  Looking a date up subtracts whole years and then whole months;
this finds the month whose days the number of the date falls into (`host_eq_ok_iff`).

Eight of the first months have neither 29 nor 30 days.  From 1365 on all months are regular, so that
the tables keep the month table of these years (`keeps`).
-/

namespace HijriRecurrence.UmmAlQura

open LunarDate

variable {first month day days : Int} {lengths : List Int} {g : CivilDate} {d : LunarDay}

/-! ### Finding a month among lengths -/

/-- Number of days of the first months of a list. -/
def daysBefore (lengths : List Int) (count : Nat) : Int := (lengths.take count).sum

@[simp] theorem daysBefore_zero : daysBefore lengths 0 = 0 := rfl

@[simp] theorem daysBefore_cons {length : Int} {count : Nat} :
    daysBefore (length :: lengths) (count + 1) = length + daysBefore lengths count := by
  rw [daysBefore, List.take_succ_cons, List.sum_cons]
  rfl

theorem daysBefore_nonneg (h : ∀ length ∈ lengths, 0 ≤ length) (count : Nat) :
    0 ≤ daysBefore lengths count :=
  List.sum_nonneg fun length hmem => h length (List.mem_of_mem_take hmem)

theorem daysBefore_succ {count : Nat} (h : count < lengths.length) :
    daysBefore lengths (count + 1) = daysBefore lengths count + lengths[count] :=
  List.sum_take_succ lengths count h

/-- What is looked up is the month whose days the number falls into, and its day. -/
theorem locateMonth_eq_some_iff (hpos : ∀ length ∈ lengths, 0 ≤ length) (hdays : 0 ≤ days) :
    locateMonth first lengths days = some (month, day) ↔
      ∃ count, ∃ h : count < lengths.length, month = first + count ∧
        (1 ≤ day ∧ day ≤ lengths[count]) ∧ days = daysBefore lengths count + day - 1 := by
  induction lengths generalizing first days with
  | nil => simp [locateMonth]
  | cons length rest ih =>
    have hrest := fun l hl => hpos l (List.mem_cons_of_mem length hl)
    rw [locateMonth]
    by_cases hlt : days < length
    · rw [if_pos hlt]
      constructor
      · rintro ⟨⟩
        exact ⟨0, Nat.succ_pos _, by simp, ⟨by omega, by simp; omega⟩, by simp⟩
      · rintro ⟨count, hcount, rfl, hday, hsum⟩
        cases count with
        | zero =>
          have heq : days + 1 = day := by
            simp at hsum
            omega
          rw [heq]
          simp
        | succ count =>
          have hbefore := daysBefore_nonneg hrest count
          rw [daysBefore_cons] at hsum
          omega
    · rw [if_neg hlt, ih hrest (by omega)]
      constructor
      · rintro ⟨count, hcount, rfl, hday, hsum⟩
        refine ⟨count + 1, Nat.succ_lt_succ hcount, by push_cast; omega, hday, ?_⟩
        rw [daysBefore_cons]
        omega
      · rintro ⟨count, hcount, rfl, hday, hsum⟩
        cases count with
        | zero =>
          simp at hsum hday
          omega
        | succ count =>
          refine ⟨count, Nat.lt_of_succ_lt_succ hcount, by push_cast; omega, hday, ?_⟩
          rw [daysBefore_cons] at hsum
          omega

/-- What is looked up in a list is looked up in its first part, or after it in the second. -/
theorem locateMonth_append {front : List Int} (hpos : ∀ length ∈ front, 0 ≤ length)
    (hdays : 0 ≤ days) :
    locateMonth first (front ++ lengths) days =
      if days < front.sum then locateMonth first front days
      else locateMonth (first + front.length) lengths (days - front.sum) := by
  induction front generalizing first days with
  | nil => simp [show ¬days < 0 by omega]
  | cons length rest ih =>
    have hrest := fun l hl => hpos l (List.mem_cons_of_mem length hl)
    have hsum := List.sum_nonneg hrest
    rw [List.cons_append, locateMonth, locateMonth, List.sum_cons, List.length_cons]
    by_cases hlt : days < length
    · rw [if_pos hlt, if_pos hlt, if_pos (by omega)]
    · rw [if_neg hlt, if_neg hlt, ih hrest (by omega)]
      have hcast : first + ((rest.length + 1 : Nat) : Int) = first + 1 + rest.length := by
        push_cast
        omega
      rw [hcast, show days - (length + rest.sum) = days - length - rest.sum by omega]
      by_cases hrestlt : days - length < rest.sum
      · rw [if_pos hrestlt, if_pos (by omega)]
      · rw [if_neg hrestlt, if_neg (by omega)]

/-! ### Months in a row -/

def firstMonth : Int := (firstYear - 1) * 12

/-- The day number at which a month starts when months of some lengths follow each other from the
first month of the tables on. -/
def startOf (lengths : List Int) (month : Int) : Int :=
  firstDayNumber + daysBefore lengths (month - firstMonth).toNat

/-- A month starts when the month before it is over. -/
theorem startOf_succ {count : Nat} (h : count < lengths.length) :
    startOf lengths (firstMonth + count + 1) =
      startOf lengths (firstMonth + count) + lengths[count] := by
  unfold startOf
  rw [show (firstMonth + (count : Int) + 1 - firstMonth).toNat = count + 1 by omega,
    show (firstMonth + (count : Int) - firstMonth).toNat = count by omega, daysBefore_succ h]
  omega

theorem startOf_mono {later : Int} (hpos : ∀ length ∈ lengths, 0 ≤ length) (hle : month ≤ later)
    (hlow : firstMonth ≤ month) (hhigh : later ≤ firstMonth + lengths.length) :
    startOf lengths month ≤ startOf lengths later := by
  obtain ⟨steps, rfl⟩ := Int.le.dest hle
  induction steps with
  | zero => simp
  | succ steps ih =>
    have hbefore := ih (by omega) (by omega)
    obtain ⟨count, hcount⟩ := Int.le.dest (show firstMonth ≤ month + steps by omega)
    have hlt : count < lengths.length := by omega
    have hnext := startOf_succ hlt
    have hlength := hpos _ (List.getElem_mem hlt)
    rw [hcount] at hnext
    rw [Int.natCast_succ, ← Int.add_assoc]
    omega

/-! ### Finding a month among years -/

def allLengths : List Int := yearRows.flatMap monthLengths

theorem length_monthLengths (row : Nat) : (monthLengths row).length = 12 := rfl

theorem monthLengths_nonneg {row : Nat} {length : Int} (h : length ∈ monthLengths row) :
    0 ≤ length := by
  obtain ⟨k, -, rfl⟩ := List.mem_map.1 h
  omega

/-- A day is looked up by its year as it is among all months. -/
theorem locateYear_eq_some_iff {year : Int} {rows : List Nat} (hdays : 0 ≤ days) :
    locateYear year
        (rows.map fun row => (monthLengths row, (monthLengths row).foldr (· + ·) 0)) days = some d ↔
      (1 ≤ d.month ∧ d.month ≤ 12) ∧
        locateMonth ((year - 1) * 12) (rows.flatMap monthLengths) days =
          some (monthIndex d, d.day) := by
  induction rows generalizing year days with
  | nil => simp [locateYear, locateMonth]
  | cons row rest ih =>
    have hrow : ∀ length ∈ monthLengths row, 0 ≤ length := fun _ => monthLengths_nonneg
    have hsum : (monthLengths row).foldr (· + ·) 0 = (monthLengths row).sum := rfl
    rw [List.map_cons, List.flatMap_cons, locateYear, locateMonth_append hrow hdays, hsum]
    by_cases hlt : days < (monthLengths row).sum
    · rw [if_pos hlt, if_pos hlt, Option.map_eq_some_iff]
      constructor
      · rintro ⟨⟨month, day⟩, hfound, rfl⟩
        obtain ⟨count, hcount, rfl, hday, hnumber⟩ :=
          (locateMonth_eq_some_iff hrow hdays).1 hfound
        have hyear := hcount
        rw [length_monthLengths] at hyear
        refine ⟨by dsimp only; omega, (locateMonth_eq_some_iff hrow hdays).2
          ⟨count, hcount, ?_, hday, hnumber⟩⟩
        unfold monthIndex
        dsimp only
        omega
      · rintro ⟨hmonth, hfound⟩
        obtain ⟨count, hcount, hindex, hday, hnumber⟩ :=
          (locateMonth_eq_some_iff hrow hdays).1 hfound
        have hyear := hcount
        rw [length_monthLengths] at hyear
        unfold monthIndex at hindex
        refine ⟨(d.month, d.day), (locateMonth_eq_some_iff hrow hdays).2
          ⟨count, hcount, by omega, hday, hnumber⟩, ?_⟩
        exact LunarDay.ext_fields (by dsimp only; omega) rfl rfl
    · rw [if_neg hlt, if_neg hlt, ih (by omega), length_monthLengths,
        show (year + 1 - 1) * 12 = (year - 1) * 12 + ((12 : Nat) : Int) by push_cast; omega]

/-! ### Dates of the tables -/

/-- The day number at which a month of the tables starts. -/
def start (month : Int) : Int := firstDayNumber + daysBefore allLengths (month - firstMonth).toNat

theorem length_allLengths : allLengths.length = 1896 := by decide +kernel

theorem allLengths_nonneg : ∀ length ∈ allLengths, 0 ≤ length := by
  intro length h
  obtain ⟨row, -, hrow⟩ := List.mem_flatMap.1 h
  exact monthLengths_nonneg hrow

theorem start_succ {count : Nat} (h : count < allLengths.length) :
    start (firstMonth + count + 1) = start (firstMonth + count) + allLengths[count] :=
  startOf_succ h

theorem host_eq_ok : host g = .ok d ↔ find? g = some d := by
  unfold host
  cases find? g <;> simp

/-- **The tables answer a date with the day whose number it has.** -/
theorem host_eq_ok_iff :
    host g = .ok d ↔ (1 ≤ d.month ∧ d.month ≤ 12) ∧
      (firstMonth ≤ monthIndex d ∧ monthIndex d < firstMonth + 1896) ∧
        (1 ≤ d.day ∧ d.day ≤ start (monthIndex d + 1) - start (monthIndex d)) ∧
          g.dayNumber = start (monthIndex d) + d.day - 1 := by
  rw [host_eq_ok, find?]
  by_cases hneg : g.dayNumber - firstDayNumber < 0
  · rw [if_pos hneg]
    refine ⟨fun h => (by cases h), ?_⟩
    rintro ⟨-, -, ⟨hday, -⟩, hnumber⟩
    have hstart := daysBefore_nonneg allLengths_nonneg (monthIndex d - firstMonth).toNat
    unfold start at hnumber
    omega
  · rw [if_neg hneg, years, locateYear_eq_some_iff (by omega)]
    refine and_congr_right fun _ => ?_
    rw [← allLengths, ← firstMonth, locateMonth_eq_some_iff allLengths_nonneg (by omega)]
    constructor
    · rintro ⟨count, hcount, hindex, hday, hnumber⟩
      have hlength := start_succ hcount
      rw [length_allLengths] at hcount
      rw [hindex, hlength]
      refine ⟨by omega, by omega, ?_⟩
      unfold start
      rw [show (firstMonth + (count : Int) - firstMonth).toNat = count by omega]
      omega
    · rintro ⟨hindex, hday, hnumber⟩
      obtain ⟨count, hcount⟩ := Int.le.dest hindex.1
      have hlt : count < allLengths.length := by
        rw [length_allLengths]
        omega
      have hlength := start_succ hlt
      rw [hcount] at hlength
      refine ⟨count, hlt, hcount.symm, by omega, ?_⟩
      unfold start at hnumber
      rw [← hcount, show (firstMonth + (count : Int) - firstMonth).toNat = count by omega] at hnumber
      omega

/-! ### The regular years -/

/-- The first month of 1365, from which on no month has fewer than 29 or more than 30 days. -/
def firstRegular : Int := (1365 - 1) * 12

theorem mem_regular : ∀ length ∈ allLengths.drop 264, length = 29 ∨ length = 30 := by
  decide +kernel

/-- The years from 1365 on as a month table. -/
def table : MonthTable where
  first := firstRegular
  last := firstMonth + 1896
  start := start
  first_nonneg := by decide
  first_le := by decide
  regular month hlow hhigh := by
    obtain ⟨count, rfl⟩ := Int.le.dest hlow
    have hlt : 264 + count < allLengths.length := by
      rw [length_allLengths]
      unfold firstRegular firstMonth firstYear at hhigh
      omega
    have hmonth : firstRegular + (count : Int) = firstMonth + ((264 + count : Nat) : Int) := by
      unfold firstRegular firstMonth firstYear
      omega
    have hmem : allLengths[264 + count] ∈ allLengths.drop 264 := by
      have hdrop : count < (allLengths.drop 264).length := by
        rw [List.length_drop]
        omega
      have hget := List.getElem_drop (h := hdrop)
      exact hget ▸ List.getElem_mem hdrop
    have hlength := start_succ hlt
    rw [hmonth, hlength]
    rcases mem_regular _ hmem with heq | heq <;> omega

theorem wholeYears_table : table.WholeYears := by decide

/-- How far the start of a month is from where exact mean lengths put it, in millionths of a
day. -/
def drift (month number : Int) : Int :=
  (number - civilEpoch - Observed.epochOrdinal) * 1000000 -
    (month / 12 * 354366670 + month % 12 * 29530589)

/-- **A day of the years of the tables is in the window of its search** when its month starts no
more than 58 days from where exact mean lengths put it. -/
theorem window_of_drift {number : Int} (hlow : firstMonth ≤ monthIndex d)
    (hhigh : monthIndex d < firstMonth + 1896) (hm : 1 ≤ d.month ∧ d.month ≤ 12)
    (hd : 1 ≤ d.day ∧ d.day ≤ 30) (hearly : -58000000 ≤ drift (monthIndex d) number)
    (hlate : drift (monthIndex d) number ≤ 58000000) :
    ∃ expected, Observed.estimate d = .ok expected ∧
      Observed.InWindow expected (number + d.day - 1 - civilEpoch) ∧
        expected + Observed.searchWindow ≤ lastCivilOrdinal := by
  have hyear : 1343 ≤ d.year ∧ d.year ≤ 1500 := by
    unfold firstMonth firstYear monthIndex at hlow hhigh
    omega
  obtain ⟨expected, hexpected, hnear⟩ := Observed.estimate_spec (d := d) (by omega) hm hd
  refine ⟨expected, hexpected, ?_⟩
  have hindex : monthIndex d / 12 = d.year - 1 ∧ monthIndex d % 12 = d.month - 1 := by
    unfold monthIndex
    omega
  unfold drift at hearly hlate
  rw [hindex.1, hindex.2] at hearly hlate
  unfold Observed.meanMillionths at hnear
  unfold Observed.InWindow
  unfold civilEpoch Observed.epochOrdinal at *
  unfold Observed.searchWindow lastCivilOrdinal
  omega

/-- Whether months in a row start within fifty days of where exact mean lengths put them. -/
def startsNear (month number : Int) : List Int → Bool
  | [] => true
  | length :: rest =>
    decide (-50000000 ≤ drift month number ∧ drift month number ≤ 50000000) &&
      startsNear (month + 1) (number + length) rest

theorem drift_bounds_of_startsNear {number : Int} (h : startsNear month number lengths = true)
    (count : Nat) (hcount : count < lengths.length) :
    -50000000 ≤ drift (month + count) (number + daysBefore lengths count) ∧
      drift (month + count) (number + daysBefore lengths count) ≤ 50000000 := by
  induction lengths generalizing month number count with
  | nil => exact absurd hcount (Nat.not_lt_zero _)
  | cons length rest ih =>
    obtain ⟨hfirst, hrest⟩ := Bool.and_eq_true_iff.1 h
    cases count with
    | zero => simpa using of_decide_eq_true hfirst
    | succ count =>
      have hlater := ih hrest count (Nat.lt_of_succ_lt_succ hcount)
      rwa [daysBefore_cons, ← Int.add_assoc, Int.natCast_succ, Int.add_comm (count : Int) 1,
        ← Int.add_assoc]

theorem startsNear_allLengths : startsNear firstMonth firstDayNumber allLengths = true := by
  decide +kernel

theorem drift_bounds (hlow : firstMonth ≤ month) (hhigh : month < firstMonth + 1896) :
    -50000000 ≤ drift month (start month) ∧ drift month (start month) ≤ 50000000 := by
  obtain ⟨count, rfl⟩ := Int.le.dest hlow
  have hnear := drift_bounds_of_startsNear startsNear_allLengths count (by
    rw [length_allLengths]
    omega)
  rwa [start, show (firstMonth + (count : Int) - firstMonth).toNat = count by omega]

theorem start_mono {later : Int} (hle : month ≤ later) (hlow : firstMonth ≤ month)
    (hhigh : later ≤ firstMonth + 1896) : start month ≤ start later :=
  startOf_mono allLengths_nonneg hle hlow (by rw [length_allLengths]; exact hhigh)

/-- **The tables keep the month table of the regular years.** -/
theorem host_keeps : host.Keeps table where
  host_eq n d hm h := by
    have hlow := h.1
    have hregular : firstMonth ≤ firstRegular := by decide
    rw [host_eq_ok_iff, CivilDate.dayNumber_ofDayNumber]
    constructor
    · rintro ⟨-, -, hday, hnumber⟩
      exact ⟨⟨hm, h, hday⟩, hnumber.symm⟩
    · rintro ⟨⟨-, -, hday⟩, hnumber⟩
      exact ⟨hm, ⟨Int.le_trans hregular hlow, h.2⟩, hday, hnumber.symm⟩
  near d hm h hd := by
    obtain ⟨hlow, hhigh⟩ := h
    have hregular : firstMonth ≤ firstRegular := by decide
    obtain ⟨hearly, hlate⟩ := drift_bounds (Int.le_trans hregular hlow) hhigh
    exact window_of_drift (Int.le_trans hregular hlow) hhigh hm hd
      (Int.le_trans (by decide) hearly) (Int.le_trans hlate (by decide))

end HijriRecurrence.UmmAlQura
