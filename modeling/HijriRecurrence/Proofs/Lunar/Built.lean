import HijriRecurrence.Lunar.Build
import HijriRecurrence.Proofs.Outcome

/-!
# Dates that building accepts

The type of dates holds any parts.  A date that a calculation hands out has passed `build`, and
passes it again: it is `Built`.  Its parts are in their ranges (`Built.inRange`) and its month has
its day.

Every way to a date ends in `build`, so it is enough to know that what comes out of `build` is what
went in (`build_eq_ok`).
-/

namespace HijriRecurrence.LunarDate

variable {ctx : Context} {answers : Answers} {d e : LunarDate}

/-- A date that building accepts. -/
def Built (ctx : Context) (answers : Answers) (d : LunarDate) : Prop :=
  (build ctx d).outcome answers = .ok d

/-- The date with another day in its place, whether that day exists or not. -/
def onDay (d : LunarDate) (day : LunarDay) : LunarDate := { d with toLunarDay := day }

@[simp] theorem onDay_toLunarDay (d : LunarDate) (day : LunarDay) :
    (d.onDay day).toLunarDay = day := rfl

/-- The parts of a date are in the ranges that hold in any calendar. -/
structure InRange (d : LunarDate) : Prop where
  year : 1 ≤ d.year
  month : 1 ≤ d.month ∧ d.month ≤ 12
  day : 1 ≤ d.day ∧ d.day ≤ 30
  hour : 0 ≤ d.hour ∧ d.hour ≤ 23
  minute : 0 ≤ d.minute ∧ d.minute ≤ 59
  second : 0 ≤ d.second ∧ d.second ≤ 59

/-- A check that throws at once when something holds. -/
theorem guard_eq_ok {p : Prop} [Decidable p] {error : Error} {next : Except Error Unit} :
    (if p then (throw error : Except Error Unit) >>= fun _ => next else pure () >>= fun _ => next) =
      .ok () ↔ ¬p ∧ next = .ok () := by
  by_cases hp : p <;>
    simp [hp, throw, throwThe, MonadExceptOf.throw, bind, Except.bind, pure, Except.pure]

theorem checkParts_eq_ok : d.checkParts = .ok () ↔ d.InRange := by
  have hparts : d.checkParts = .ok () ↔
      ¬d.year < 1 ∧ ¬(d.month < 1 ∨ 12 < d.month) ∧ ¬(d.day < 1 ∨ 30 < d.day) ∧
        ¬(d.hour < 0 ∨ 23 < d.hour) ∧ ¬(d.minute < 0 ∨ 59 < d.minute) ∧
          ¬(d.second < 0 ∨ 59 < d.second) := by
    unfold checkParts
    refine guard_eq_ok.trans (and_congr_right fun _ => ?_)
    refine guard_eq_ok.trans (and_congr_right fun _ => ?_)
    refine guard_eq_ok.trans (and_congr_right fun _ => ?_)
    refine guard_eq_ok.trans (and_congr_right fun _ => ?_)
    refine guard_eq_ok.trans (and_congr_right fun _ => ?_)
    by_cases h : d.second < 0 ∨ 59 < d.second <;>
      simp [h, throw, throwThe, MonadExceptOf.throw, pure, Except.pure]
  rw [hparts]
  constructor
  · rintro ⟨hy, hm, hd, hh, hmin, hs⟩
    exact ⟨by omega, by omega, by omega, by omega, by omega, by omega⟩
  · rintro ⟨hy, hm, hd, hh, hmin, hs⟩
    exact ⟨by omega, by omega, by omega, by omega, by omega, by omega⟩

/-- Building gives back the date that it is given, or nothing. -/
theorem build_eq_ok :
    (build ctx d).outcome answers = .ok e ↔ e = d ∧ Built ctx answers d := by
  have hback : (build ctx d).outcome answers = .ok e → e = d := by
    intro h
    obtain ⟨_, _, h⟩ := Calculation.outcome_bind_eq_ok.1 h
    obtain ⟨_, _, h⟩ := Calculation.outcome_bind_eq_ok.1 h
    simpa [eq_comm] using h
  constructor
  · intro h
    obtain rfl := hback h
    exact ⟨rfl, h⟩
  · rintro ⟨rfl, h⟩
    exact h

theorem built_iff :
    Built ctx answers d ↔ d.InRange ∧ (checkDay ctx d).outcome answers = .ok () := by
  rw [Built, build, Calculation.outcome_bind_eq_ok, Calculation.outcome_liftM]
  constructor
  · rintro ⟨⟨⟩, hparts, h⟩
    obtain ⟨⟨⟩, hday, -⟩ := Calculation.outcome_bind_eq_ok.1 h
    exact ⟨checkParts_eq_ok.1 hparts, hday⟩
  · rintro ⟨hparts, hday⟩
    exact ⟨(), checkParts_eq_ok.2 hparts, Calculation.outcome_bind_eq_ok.2 ⟨(), hday, rfl⟩⟩

theorem Built.inRange (h : Built ctx answers d) : d.InRange := (built_iff.1 h).1

end HijriRecurrence.LunarDate
