import HijriRecurrence.Proofs.Tabular.Date
import Mathlib.Data.Nat.Periodic
import Mathlib.Tactic.Ring

/-!
# Years that are alike

Two things tell the years of the tabular calendar apart: whether the last month has its thirtieth
day, and the weekday on which the year begins.  Years that have both in common are `Alike`: their
months have the same lengths, and their days fall on the same weekdays.

A cycle of thirty years moves the weekdays by five, so after seven cycles everything comes back
(`alike_add_seven_cycles`).  Years in equal steps come across years like a given one at least three
times in seven cycles (`three_mul_le_card_alike`).
-/

namespace HijriRecurrence.Tabular

/-- Two years have the same length and begin on the same weekday. -/
structure Alike (year other : Int) : Prop where
  leap : isLeapYear other = isLeapYear year
  weekday : yearStart other % 7 = yearStart year % 7

instance (year other : Int) : Decidable (Alike year other) :=
  decidable_of_iff
    (isLeapYear other = isLeapYear year ∧ yearStart other % 7 = yearStart year % 7)
    ⟨fun h => ⟨h.1, h.2⟩, fun h => ⟨h.leap, h.weekday⟩⟩

variable {year other : Int}

theorem Alike.monthDays_eq (h : Alike year other) (month : Int) :
    monthDays other month = monthDays year month := by
  rw [monthDays, monthDays, h.leap]

theorem Alike.yearDays_eq (h : Alike year other) : yearDays other = yearDays year := by
  rw [yearDays, yearDays, h.leap]

theorem Alike.weekdayOf_eq (h : Alike year other) (month day : Int) :
    weekdayOf ⟨other, month, day⟩ = weekdayOf ⟨year, month, day⟩ := by
  have hweekday := h.weekday
  rw [weekdayOf, weekdayOf, dayNumberOf_mk, dayNumberOf_mk]
  omega

/-- After alike years the next ones begin on the same weekday. -/
theorem Alike.weekdayOf_next_eq (h : Alike year other) :
    weekdayOf ⟨other + 1, 1, 1⟩ = weekdayOf ⟨year + 1, 1, 1⟩ := by
  have hweekday := h.weekday
  have hlength := h.yearDays_eq
  rw [weekdayOf, weekdayOf, dayNumberOf_mk, dayNumberOf_mk, yearStart_succ, yearStart_succ]
  omega

/-! ### How often alike years come back -/

/-- Leap years are spread over a cycle as evenly as can be. -/
theorem isLeapYear_eq (year : Int) : isLeapYear year = decide ((11 * year + 14) % 30 < 11) := by
  have hposition : ∀ p < 30, leapPositions.contains ((p : Nat) + 1) =
      decide ((11 * ((p : Nat) + 1 : Int) + 14) % 30 < 11) := by decide
  obtain ⟨p, cycles, hp, rfl⟩ : ∃ (p : Nat) (cycles : Int), p < 30 ∧ year = 30 * cycles + p + 1 :=
    ⟨((year - 1) % 30).toNat, (year - 1) / 30, by omega, by omega⟩
  have hfirst : (30 * cycles + p + 1 - 1) % 30 = p := by omega
  have hsecond : (11 * (30 * cycles + p + 1) + 14) % 30 = (11 * (p + 1) + 14) % 30 := by omega
  rw [isLeapYear, cycleYears, hfirst, hsecond, hposition p hp]

/-- Whole cycles leave the leap years where they are. -/
theorem isLeapYear_add_cycles (year cycles : Int) :
    isLeapYear (year + 30 * cycles) = isLeapYear year := by
  have hplace : (11 * (year + 30 * cycles) + 14) % 30 = (11 * year + 14) % 30 := by omega
  rw [isLeapYear_eq, isLeapYear_eq, hplace]

theorem yearStart_add_cycles (year cycles : Int) :
    yearStart (year + 30 * cycles) = yearStart year + 10631 * cycles := by
  have hdiv : (year + 30 * cycles - 1) / 30 = (year - 1) / 30 + cycles := by omega
  have hmod : (year + 30 * cycles - 1) % 30 = (year - 1) % 30 := by omega
  rw [yearStart, yearStart, cycleYears, cycleDays, hdiv, hmod]
  omega

/-- Seven cycles bring everything back. -/
theorem alike_add_seven_cycles (cycles : Int) :
    Alike year (other + 210 * cycles) ↔ Alike year other := by
  have hcycles : other + 210 * cycles = other + 30 * (7 * cycles) := by omega
  have hweekday : (yearStart other + 10631 * (7 * cycles)) % 7 = yearStart other % 7 := by omega
  constructor
  · rintro ⟨hleap, hstart⟩
    rw [hcycles, isLeapYear_add_cycles] at hleap
    rw [hcycles, yearStart_add_cycles, hweekday] at hstart
    exact ⟨hleap, hstart⟩
  · rintro ⟨hleap, hstart⟩
    constructor
    · rw [hcycles, isLeapYear_add_cycles, hleap]
    · rw [hcycles, yearStart_add_cycles, hweekday, hstart]

/-- Of thirty places in equal steps around a circle of thirty, three at least lie on the same side
of the eleventh as the first. -/
theorem three_le_countP_sameSide : ∀ place < 30, ∀ step < 30,
    3 ≤ (List.range 30).countP fun i =>
      Nat.blt ((place + i * step) % 30) 11 == Nat.blt place 11 := by
  decide +kernel

/-- Of thirty years in equal steps, three at least have the length of the first. -/
theorem three_le_countP_leap (year step : Int) :
    3 ≤ (List.range 30).countP fun (i : Nat) =>
      isLeapYear (year + i * step) == isLeapYear year := by
  obtain ⟨place, hplace⟩ : ∃ place : Nat, (place : Int) = (11 * year + 14) % 30 :=
    ⟨((11 * year + 14) % 30).toNat, by omega⟩
  obtain ⟨turn, hturn⟩ : ∃ turn : Nat, (turn : Int) = 11 * step % 30 :=
    ⟨(11 * step % 30).toNat, by omega⟩
  have hwalk (i : Nat) : isLeapYear (year + i * step) = Nat.blt ((place + i * turn) % 30) 11 := by
    have hsteps : ((i * turn : Nat) : Int) ≡ 11 * (i * step) [ZMOD 30] := by
      rw [Nat.cast_mul, hturn, Int.mul_left_comm]
      exact (Int.mod_modEq _ _).mul_left _
    generalize i * turn = steps at hsteps ⊢
    unfold Int.ModEq at hsteps
    have hsame : (11 * (year + i * step) + 14) % 30 = ((place + steps) % 30 : Nat) := by omega
    rw [isLeapYear_eq, hsame, Bool.eq_iff_iff, decide_eq_true_iff, Nat.blt_eq]
    omega
  have hfirst : isLeapYear year = Nat.blt place 11 := by
    rw [isLeapYear_eq, Bool.eq_iff_iff, decide_eq_true_iff, Nat.blt_eq]
    omega
  simp only [hwalk, hfirst]
  exact three_le_countP_sameSide place (by omega) turn (by omega)

/-- Steps that are no multiple of seven have an inverse among the weekdays. -/
theorem exists_inverse {step : Int} (h : step % 7 ≠ 0) :
    ∃ inverse, step * inverse ≡ 1 [ZMOD 7] := by
  have hrest : step % 7 = 1 ∨ step % 7 = 2 ∨ step % 7 = 3 ∨ step % 7 = 4 ∨ step % 7 = 5 ∨
      step % 7 = 6 := by omega
  unfold Int.ModEq
  rcases hrest with hr | hr | hr | hr | hr | hr
  · exact ⟨1, by omega⟩
  · exact ⟨4, by omega⟩
  · exact ⟨5, by omega⟩
  · exact ⟨2, by omega⟩
  · exact ⟨3, by omega⟩
  · exact ⟨6, by omega⟩

/-- In such steps, so many cycles apart, years begin on every weekday. -/
theorem exists_cycles {step : Int} (h : step % 7 ≠ 0) (start weekday : Int) :
    ∃ j : Nat, j < 7 ∧ (start + 10631 * (j * step)) % 7 = weekday % 7 := by
  obtain ⟨inverse, hinverse⟩ := exists_inverse h
  obtain ⟨j, hj⟩ : ∃ j : Nat, (j : Int) = 3 * inverse * (weekday - start) % 7 :=
    ⟨(3 * inverse * (weekday - start) % 7).toNat, by omega⟩
  have hj' : (j : Int) ≡ 3 * inverse * (weekday - start) [ZMOD 7] := by
    rw [hj]
    exact Int.mod_modEq _ _
  refine ⟨j, by omega, ?_⟩
  calc start + 10631 * (j * step)
      ≡ start + 10631 * (3 * inverse * (weekday - start) * step) [ZMOD 7] :=
        (((hj'.mul_right step).mul_left 10631).add_left start)
    _ = start + step * inverse * (31893 * (weekday - start)) := by ring
    _ ≡ start + 1 * (31893 * (weekday - start)) [ZMOD 7] :=
        ((hinverse.mul_right _).add_left start)
    _ ≡ weekday [ZMOD 7] := by
        unfold Int.ModEq
        omega

/-- **Of 210 years in equal steps, three at least are like the first.**  If the steps are multiples
of seven years, the first years of all cycles are; otherwise every year of the right length is, in
one of the cycles. -/
theorem three_le_card_alike (start step : Int) (first : Nat) :
    3 ≤ ((Finset.Ico first (first + 210)).filter fun (k : Nat) =>
      Alike (start + first * step) (start + k * step)).card := by
  obtain ⟨year, hyear⟩ : ∃ year, start + first * step = year := ⟨_, rfl⟩
  have hwalk (i j : Nat) : start + ((first + (i + 30 * j) : Nat) : Int) * step =
      year + i * step + 30 * (j * step) := by
    rw [← hyear]
    push_cast
    ring
  rw [hyear]
  by_cases hseven : step % 7 = 0
  · have hsub : Finset.range 7 ⊆ (((Finset.Ico first (first + 210)).filter fun (k : Nat) =>
        Alike year (start + k * step)).image fun k => (k - first) / 30) := by
      intro j hj
      have hj := Finset.mem_range.1 hj
      refine Finset.mem_image.2 ⟨first + (0 + 30 * j), Finset.mem_filter.2 ⟨?_, ?_, ?_⟩, by omega⟩
      · exact Finset.mem_Ico.2 (by omega)
      · rw [hwalk, isLeapYear_add_cycles]
        simp
      · have hweeks : (10631 * (j * step)) % 7 = 0 := by
          rw [← Int.mul_assoc, Int.mul_emod, hseven]
          simp
        rw [hwalk, yearStart_add_cycles]
        simp only [Nat.cast_zero, Int.zero_mul, Int.add_zero]
        omega
    have hcard := (Finset.card_le_card hsub).trans Finset.card_image_le
    rw [Finset.card_range] at hcard
    omega
  · have hkind := three_le_countP_leap year step
    rw [List.countP_eq_length_filter] at hkind
    have hsub : (Finset.range 30).filter (fun (i : Nat) =>
        isLeapYear (year + i * step) = isLeapYear year) ⊆
        (((Finset.Ico first (first + 210)).filter fun (k : Nat) =>
          Alike year (start + k * step)).image fun k => (k - first) % 30) := by
      intro i hi
      obtain ⟨hi, hleap⟩ := Finset.mem_filter.1 hi
      have hi := Finset.mem_range.1 hi
      obtain ⟨j, hj, hweekday⟩ :=
        exists_cycles hseven (yearStart (year + i * step)) (yearStart year)
      refine Finset.mem_image.2 ⟨first + (i + 30 * j), Finset.mem_filter.2 ⟨?_, ?_, ?_⟩, by omega⟩
      · exact Finset.mem_Ico.2 (by omega)
      · rw [hwalk, isLeapYear_add_cycles, hleap]
      · rw [hwalk, yearStart_add_cycles, hweekday]
    exact hkind.trans ((Finset.card_le_card hsub).trans Finset.card_image_le)

/-- **Walking from any year, every 210 steps pass three years at least like a given one of the
walk.** -/
theorem three_mul_le_card_alike (start step : Int) (given first rounds : Nat) :
    3 * rounds ≤ ((Finset.Ico first (first + 210 * rounds)).filter fun (k : Nat) =>
      Alike (start + given * step) (start + k * step)).card := by
  have hperiodic : Function.Periodic
      (fun (k : Nat) => Alike (start + given * step) (start + k * step)) 210 := by
    intro k
    have hlater : start + ((k + 210 : Nat) : Int) * step = start + k * step + 210 * step := by
      push_cast
      ring
    dsimp only
    rw [hlater]
    exact propext (alike_add_seven_cycles step)
  have hround (first : Nat) : 3 ≤ ((Finset.Ico first (first + 210)).filter fun (k : Nat) =>
      Alike (start + given * step) (start + k * step)).card := by
    rw [Nat.filter_Ico_card_eq_of_periodic first 210 _ hperiodic,
      ← Nat.filter_Ico_card_eq_of_periodic given 210 _ hperiodic]
    exact three_le_card_alike start step given
  induction rounds with
  | zero => exact Nat.zero_le _
  | succ rounds ih =>
    have hend : first + 210 * (rounds + 1) = first + 210 * rounds + 210 := by omega
    rw [hend, ← Finset.Ico_union_Ico_eq_Ico (b := first + 210 * rounds) (by omega) (by omega),
      Finset.filter_union, Finset.card_union_of_disjoint]
    · have hlast := hround (first + 210 * rounds)
      rw [Nat.mul_succ]
      exact Nat.add_le_add ih hlast
    · exact Finset.disjoint_filter_filter (Finset.Ico_disjoint_Ico_consecutive _ _ _)

end HijriRecurrence.Tabular
