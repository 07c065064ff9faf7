import HijriRecurrence.Proofs.Tabular.Date

/-!
# From a number to a day

Two searches lead from a number of days to a day: one through the years of a cycle and the months of
a year (`ofDayNumber`), and one through the months of a year alone (`locate`).  Both subtract
lengths until what is left fits.

* `locate_spec` — a position in a year belongs to exactly one day of the year;
* `takeMonths_spec` — what is left after whole months is a day of the month that is reached;
* `ofDayNumber_spec` — every number from the first day's on is the number of a day that exists;
* `dayAt` — the day of a number, as a function.
-/

namespace HijriRecurrence.Tabular

/-! ### The months of a year -/

/-- The last months of a year, so many of them. -/
def lastMonths : Nat → List Int
  | 0 => []
  | count + 1 => (12 - count : Int) :: lastMonths count

theorem lastMonths_twelve : lastMonths 12 = allMonths := rfl

/-- The day at a position among some months of a year. -/
def locate (year : Int) : List Int → Int → Option LunarDay
  | [], _ => none
  | month :: rest, position =>
    if position ≤ monthDays year month then some ⟨year, month, position⟩
    else locate year rest (position - monthDays year month)

theorem year_of_locate {year position : Int} {months : List Int} {d : LunarDay}
    (h : locate year months position = some d) : d.year = year := by
  induction months generalizing position with
  | nil => exact absurd h (by simp [locate])
  | cons m rest ih =>
    rw [locate] at h
    split at h
    · obtain rfl := Option.some.inj h
      rfl
    · exact ih h

/-- A search through the calendar is the search through its months. -/
theorem outcome_locate {answers : Answers} {year : Int} {months : List Int} (position : Int)
    (hm : ∀ m ∈ months, 1 ≤ m ∧ m ≤ 12) :
    (calendar.locate year months (.whole position)).outcome answers =
      .ok ((locate year months position).map fun d => (d.month, .whole d.day)) := by
  induction months generalizing position with
  | nil => rfl
  | cons m rest ih =>
    have hrest := ih (position - monthDays year m) fun n hn => hm n (List.mem_cons_of_mem m hn)
    rw [Calendar.locate,
      Calculation.outcome_bind_ok (outcome_monthLength (hm m List.mem_cons_self)),
      Calculation.outcome_bind_ok (a := decide (position ≤ monthDays year m)) (by simp), locate]
    by_cases h : position ≤ monthDays year m
    · simp [h]
    · simp only [h, decide_false, Bool.false_eq_true, if_false]
      rw [Calculation.outcome_bind_ok (a := .whole (position - monthDays year m)) (by simp), hrest]

/-- **A position in a year belongs to a day of the year.**  With `count + 1` months left, the
position is counted from the start of the first of them. -/
theorem locate_lastMonths {year : Int} (hy : 1 ≤ year) :
    ∀ (count : Nat) (position : Int), count ≤ 11 → 1 ≤ position →
      daysBeforeMonth (12 - count) + position ≤ yearDays year →
      ∃ d, locate year (lastMonths (count + 1)) position = some d ∧ IsDay d ∧ d.year = year ∧
        dayOfYear d = daysBeforeMonth (12 - count) + position
  | 0, position, _, hpos, hle => by
    have hfit : position ≤ monthDays year 12 := by
      have := daysBeforeMonth_last year
      rw [Int.natCast_zero, Int.sub_zero] at hle
      omega
    refine ⟨⟨year, 12, position⟩, ?_, isDay_mk.2 (by omega), rfl, rfl⟩
    simp [lastMonths, locate, hfit]
  | count + 1, position, hcount, hpos, hle => by
    have hsucc := daysBeforeMonth_succ year (12 - ((count + 1 : Nat) : Int))
      (by omega) (by omega)
    rw [show (12 : Int) - ((count + 1 : Nat) : Int) + 1 = 12 - (count : Int) by omega] at hsucc
    rw [lastMonths, locate]
    by_cases hfit : position ≤ monthDays year (12 - ((count + 1 : Nat) : Int))
    · rw [if_pos hfit]
      exact ⟨_, rfl, isDay_mk.2 (by omega), rfl, rfl⟩
    · rw [if_neg hfit]
      obtain ⟨d, hd, hday, hyear, hpos'⟩ := locate_lastMonths hy count
        (position - monthDays year (12 - ((count + 1 : Nat) : Int)))
        (by omega) (by omega) (by omega)
      exact ⟨d, hd, hday, hyear, by omega⟩

theorem locate_spec {year position : Int} (hy : 1 ≤ year) (h : 1 ≤ position)
    (h' : position ≤ yearDays year) :
    ∃ d, locate year allMonths position = some d ∧ IsDay d ∧ d.year = year ∧
      dayOfYear d = position := by
  have hzero : daysBeforeMonth (12 - ((11 : Nat) : Int)) = 0 := by decide
  obtain ⟨d, hd, hday, hyear, hpos⟩ := locate_lastMonths hy 11 position (by omega) h (by omega)
  exact ⟨d, lastMonths_twelve ▸ hd, hday, hyear, by omega⟩

/-- The position of a day in its year is one of the year. -/
theorem dayOfYear_bounds {d : LunarDay} (h : IsDay d) :
    1 ≤ dayOfYear d ∧ dayOfYear d ≤ yearDays d.year := by
  have hnum := dayNumberOf_mem_year h
  rw [dayNumberOf_eq] at hnum
  unfold dayOfYear
  omega

/-- Days of one year at one position are the same. -/
theorem dayOfYear_injective {a b : LunarDay} (ha : IsDay a) (hb : IsDay b)
    (hyear : a.year = b.year) (h : dayOfYear a = dayOfYear b) : a = b := by
  refine dayNumberOf_injective ha hb ?_
  unfold dayOfYear at h
  rw [dayNumberOf_eq, dayNumberOf_eq, hyear]
  omega

/-- The search finds a day exactly at the day's own position. -/
theorem locate_eq_some_iff {year position : Int} {d : LunarDay} (hd : IsDay d) (h : 1 ≤ position)
    (h' : position ≤ yearDays year) (hyear : d.year = year) :
    locate year allMonths position = some d ↔ dayOfYear d = position := by
  obtain ⟨e, he, hday, hey, hpos⟩ := locate_spec (hyear ▸ hd.1) h h'
  rw [he]
  constructor
  · intro heq
    obtain rfl := Option.some.inj heq
    exact hpos
  · intro heq
    rw [dayOfYear_injective hday hd (hey.trans hyear.symm) (hpos.trans heq.symm)]

/-! ### Whole months taken away -/

/-- **What is left after whole months is a day of the month that is reached.** -/
theorem takeMonths_lastMonths (year : Int) :
    ∀ (count : Nat) (days : Int), count ≤ 11 → 0 ≤ days →
      daysBeforeMonth (12 - count) + days < yearDays year →
      ∃ month left, takeMonths year (lastMonths (count + 1)) days = (month, left) ∧
        1 ≤ month ∧ month ≤ 12 ∧ 0 ≤ left ∧ left < monthDays year month ∧
          daysBeforeMonth month + left = daysBeforeMonth (12 - count) + days
  | 0, days, _, hdays, hlt => by
    have hfit : days < monthDays year 12 := by
      have := daysBeforeMonth_last year
      rw [Int.natCast_zero, Int.sub_zero] at hlt
      omega
    exact ⟨12, days, rfl, by decide, by decide, hdays, hfit, rfl⟩
  | count + 1, days, hcount, hdays, hlt => by
    have hsucc := daysBeforeMonth_succ year (12 - ((count + 1 : Nat) : Int))
      (by omega) (by omega)
    rw [show (12 : Int) - ((count + 1 : Nat) : Int) + 1 = 12 - (count : Int) by omega] at hsucc
    rw [lastMonths, lastMonths, takeMonths]
    by_cases hfit : monthDays year (12 - ((count + 1 : Nat) : Int)) ≤ days
    · rw [if_pos hfit]
      obtain ⟨month, left, htake, hm, hm', hl, hl', hsum⟩ := takeMonths_lastMonths year
        count (days - monthDays year (12 - ((count + 1 : Nat) : Int))) (by omega) (by omega)
        (by omega)
      exact ⟨month, left, htake, hm, hm', hl, hl', by omega⟩
    · rw [if_neg hfit]
      exact ⟨_, days, rfl, by omega, by omega, hdays, by omega, rfl⟩

theorem takeMonths_spec (year days : Int) (h : 0 ≤ days) (h' : days < yearDays year) :
    ∃ month left, takeMonths year allMonths days = (month, left) ∧
      1 ≤ month ∧ month ≤ 12 ∧ 0 ≤ left ∧ left < monthDays year month ∧
        daysBeforeMonth month + left = days := by
  have hzero : daysBeforeMonth (12 - ((11 : Nat) : Int)) = 0 := by decide
  obtain ⟨month, left, htake, hm, hm', hl, hl', hsum⟩ :=
    takeMonths_lastMonths year 11 days (by omega) h (by omega)
  exact ⟨month, left, lastMonths_twelve ▸ htake, hm, hm', hl, hl', by omega⟩

/-! ### The years of a cycle -/

/-- The entries of a list before the first one that lacks a property have it. -/
theorem getD_length_takeWhile {p : Int → Bool} (items : List Int) :
    (∀ i, i < (items.takeWhile p).length → p (items.getD i 0) = true) ∧
      ((items.takeWhile p).length < items.length →
        p (items.getD (items.takeWhile p).length 0) = false) := by
  induction items with
  | nil => simp
  | cons a rest ih =>
    by_cases ha : p a = true
    · rw [List.takeWhile_cons_of_pos ha, List.length_cons, List.length_cons]
      refine ⟨fun i hi => ?_, fun hlt => ?_⟩
      · cases i with
        | zero => simpa using ha
        | succ i =>
          rw [List.getD_cons_succ]
          exact ih.1 i (by omega)
      · rw [List.getD_cons_succ]
        exact ih.2 (by omega)
    · rw [List.takeWhile_cons_of_neg ha]
      simp [ha]

/-- The year of a cycle that a number of days of the cycle belongs to. -/
theorem cyclePosition_spec {remaining : Int} (h : 0 ≤ remaining) (h' : remaining < cycleDays) :
    ∃ position : Nat, (yearOffsets.takeWhile (· ≤ remaining)).length = position + 1 ∧
      position < 30 ∧ yearOffset position ≤ remaining ∧
        remaining < yearOffset position + yearDays (position + 1) := by
  obtain ⟨hbefore, hat⟩ := getD_length_takeWhile (p := (· ≤ remaining)) yearOffsets
  have hlen : yearOffsets.length = 30 := by simp [yearOffsets]
  have hle : (yearOffsets.takeWhile (· ≤ remaining)).length ≤ 30 := by
    rw [← hlen]
    exact (List.takeWhile_sublist _).length_le
  have hpos : 0 < (yearOffsets.takeWhile (· ≤ remaining)).length := by
    refine Nat.pos_of_ne_zero fun hzero => ?_
    rw [hzero, hlen] at hat
    have hat := hat (by omega)
    rw [yearOffsets_getD (by omega)] at hat
    exact of_decide_eq_false hat h
  obtain ⟨position, hposition⟩ := Nat.exists_eq_add_of_lt hpos
  rw [Nat.zero_add] at hposition
  refine ⟨position, hposition, by omega, ?_, ?_⟩
  · have hfits := hbefore position (by omega)
    rw [yearOffsets_getD (by omega)] at hfits
    simpa using hfits
  · rw [← yearOffset]
    rcases Nat.lt_or_ge (position + 1) 30 with hlt | hge
    · have hnext := hat (by omega)
      rw [hposition, yearOffsets_getD hlt] at hnext
      simpa using hnext
    · obtain rfl : position = 29 := by omega
      exact yearOffset_cycle ▸ h'

/-- **Every number from the first day's on is the number of a day that exists.** -/
theorem ofDayNumber_spec {n : Int} (h : epoch ≤ n) :
    ∃ d, ofDayNumber n = .ok d ∧ IsDay d ∧ dayNumberOf d = n := by
  have hdays : 0 ≤ n - epoch := by omega
  have hcycle : (0 : Int) < cycleDays := by decide
  have hrem := Int.emod_nonneg (n - epoch) (Int.ne_of_gt hcycle)
  have hrem' := Int.emod_lt_of_pos (n - epoch) hcycle
  obtain ⟨position, hlength, hposition, hle, hlt⟩ := cyclePosition_spec hrem hrem'
  have hquot : 0 ≤ (n - epoch) / cycleDays := Int.ediv_nonneg hdays (Int.le_of_lt hcycle)
  have hmod :
      ((n - epoch) / cycleDays * cycleYears + position + 1 - 1) % cycleYears = position := by
    unfold cycleYears
    omega
  have hdiv : ((n - epoch) / cycleDays * cycleYears + position + 1 - 1) / cycleYears =
      (n - epoch) / cycleDays := by
    unfold cycleYears
    omega
  have hlen : yearDays ((n - epoch) / cycleDays * cycleYears + position + 1) =
      yearDays (position + 1) := by
    rw [yearDays_eq_position, hmod, Int.toNat_natCast]
  obtain ⟨month, left, htake, hm, hm', hl, hl', hsum⟩ := takeMonths_spec
    ((n - epoch) / cycleDays * cycleYears + position + 1)
    ((n - epoch) % cycleDays - yearOffset position) (by omega) (by omega)
  refine ⟨⟨(n - epoch) / cycleDays * cycleYears + position + 1, month, left + 1⟩, ?_, ?_, ?_⟩
  · simp only [ofDayNumber, hlength, Nat.add_sub_cancel, yearOffsets_getD hposition, htake]
    rw [if_neg (by omega)]
  · have hy : 1 ≤ (n - epoch) / cycleDays * cycleYears + position + 1 := by
      unfold cycleYears
      omega
    exact isDay_mk.2 (by omega)
  · rw [dayNumberOf_mk, yearStart, hmod, hdiv, Int.toNat_natCast, yearOffsets_getD hposition]
    have := Int.emod_add_mul_ediv (n - epoch) cycleDays
    rw [Int.mul_comm] at this
    omega

/-- The day of a number; a number before the first day has the first day. -/
def dayAt (n : Int) : LunarDay := (ofDayNumber n).toOption.getD ⟨1, 1, 1⟩

theorem ofDayNumber_eq_dayAt {n : Int} (h : epoch ≤ n) : ofDayNumber n = .ok (dayAt n) := by
  obtain ⟨d, hd, -, -⟩ := ofDayNumber_spec h
  rw [dayAt, hd]
  rfl

theorem isDay_dayAt {n : Int} (h : epoch ≤ n) : IsDay (dayAt n) := by
  obtain ⟨d, hd, hday, -⟩ := ofDayNumber_spec h
  rw [dayAt, hd]
  exact hday

theorem dayNumberOf_dayAt {n : Int} (h : epoch ≤ n) : dayNumberOf (dayAt n) = n := by
  obtain ⟨d, hd, -, hn⟩ := ofDayNumber_spec h
  rw [dayAt, hd]
  exact hn

/-- A day that exists has a number from the first day's on. -/
theorem epoch_le_dayNumberOf {d : LunarDay} (h : IsDay d) : epoch ≤ dayNumberOf d := by
  have hfirst : dayNumberOf ⟨1, 1, 1⟩ = epoch := by decide
  have hle : (⟨1, 1, 1⟩ : LunarDay) ≤ d := by
    rw [LunarDay.le_def, LunarDay.lt_def]
    obtain ⟨hy, hm, -, hd, -⟩ := h
    show ¬(d.year < 1 ∨ d.year = 1 ∧ (d.month < 1 ∨ d.month = 1 ∧ d.day < 1))
    omega
  have hone : IsDay ⟨1, 1, 1⟩ := by decide
  rw [← hfirst]
  exact (dayNumberOf_le_iff hone h).2 hle

theorem dayAt_dayNumberOf {d : LunarDay} (h : IsDay d) : dayAt (dayNumberOf d) = d := by
  have hle := epoch_le_dayNumberOf h
  exact dayNumberOf_injective (isDay_dayAt hle) h (dayNumberOf_dayAt hle)

end HijriRecurrence.Tabular
