import HijriRecurrence.Proofs.Rule.CandidatePlaces
import HijriRecurrence.Rule.Occurrences

/-!
# Occurrences increase

Whatever the calendar answers, and whatever the rule is, its occurrences are in strictly increasing
order, up to the failure that cuts them short if there is one (`RuleOptions.occurrences_increase`).

The days of one period are sorted (`RuleOptions.pairwise_periodDays`).  A walk that has taken a day
passes only days after it (`Follows`), and this carries over from one period to the next.
-/

namespace HijriRecurrence

variable {ctx : Context} {answers : Answers} {cal : Calendar}

namespace RuleOptions

variable {o : RuleOptions}

/-! ### Walks -/

/-- Dates that a walk passes when a day was taken before: each is after the one before it, and all
are after the day taken. -/
structure Follows (taken : Option Candidate) (dates : List LunarDate) : Prop where
  increasing : dates.Pairwise fun a b => a.toLunarDay < b.toLunarDay
  after : ∀ d ∈ dates, ∀ previous ∈ taken, previous.before (.ofDay d.toLunarDay) = true

theorem follows_nil (taken : Option Candidate) : Follows taken [] :=
  ⟨List.Pairwise.nil, fun _ h => absurd h List.not_mem_nil⟩

/-- A date goes in front of those that follow it. -/
theorem Follows.cons {taken : Option Candidate} {d : LunarDate} {dates : List LunarDate}
    (hd : ∀ previous ∈ taken, previous.before (.ofDay d.toLunarDay) = true)
    (h : Follows (some (.ofDay d.toLunarDay)) dates) : Follows taken (d :: dates) := by
  have hlater : ∀ e ∈ dates,
      (Candidate.ofDay d.toLunarDay).before (.ofDay e.toLunarDay) = true := by
    intro e he
    exact h.after e he _ rfl
  refine ⟨List.pairwise_cons.2 ⟨fun e he => ?_, h.increasing⟩, fun e he previous hprevious => ?_⟩
  · simpa using hlater e he
  · rcases List.mem_cons.1 he with rfl | hmem
    · exact hd previous hprevious
    · exact Candidate.before_trans (hd previous hprevious) (hlater e hmem)

/-- Only on a day is there a date, which is of this day. -/
theorem ofDay_of_dateOn {c : Candidate} {d : LunarDate}
    (h : (o.dateOn ctx c).outcome answers = .ok d) : c = .ofDay d.toLunarDay := by
  obtain ⟨day, hday, h⟩ := Calculation.outcome_bind_eq_ok.1 h
  obtain ⟨rfl, -⟩ := LunarDate.build_eq_ok.1 h
  rw [Calculation.outcome_liftM, Candidate.toDay] at hday
  obtain ⟨year, month, quantity⟩ := c
  cases quantity with
  | whole n =>
    obtain rfl := Except.ok.inj hday
    rfl
  | given v => cases hday

/-- Occurrences on increasing candidates, when what comes after them follows the last one. -/
theorem follows_yieldAll {taken : Option Candidate} {days : List Candidate}
    (hdays : days.Pairwise fun a b => a.before b = true)
    (hafter : ∀ c ∈ days, ∀ previous ∈ taken, previous.before c = true)
    {following : Unit → Occurrences LunarDate}
    (h : Follows (days.getLast?.or taken) ((following ()).items answers)) :
    Follows taken ((Occurrences.yieldAll (o.dateOn ctx) days following).items answers) := by
  induction days generalizing taken with
  | nil => exact h
  | cons c rest ih =>
    obtain ⟨hfirst, hrest⟩ := List.pairwise_cons.1 hdays
    rw [Occurrences.yieldAll, Occurrences.items_after]
    cases hdate : (o.dateOn ctx c).outcome answers with
    | error e => exact follows_nil taken
    | ok d =>
      obtain rfl := ofDay_of_dateOn hdate
      refine Follows.cons (hafter _ List.mem_cons_self) (ih hrest (fun e he => ?_) ?_)
      · rintro previous ⟨⟩
        exact hfirst e he
      · rw [List.getLast?_cons, Option.some_or] at h
        rw [Option.or_some]
        exact h

/-- Days taken from a period are among its fresh days. -/
theorem chosenDays_sublist (taken : Option Candidate) (emitted : Nat) (days : List Candidate) :
    (o.chosenDays taken emitted days).Sublist (o.freshDays taken days) := by
  unfold chosenDays
  have hwithin := List.takeWhile_sublist (fun c => !o.isPast c) (l := o.freshDays taken days)
  cases o.count with
  | none => exact hwithin
  | some count => exact (List.take_sublist _ _).trans hwithin

/-- Fresh days are after the day taken before. -/
theorem before_of_mem_freshDays {taken : Option Candidate} {days : List Candidate} {c : Candidate}
    (h : c ∈ o.freshDays taken days) : ∀ previous ∈ taken, previous.before c = true := by
  rintro previous ⟨⟩
  obtain ⟨-, hfresh⟩ := List.mem_filter.1 h
  exact (Bool.and_eq_true_iff.1 hfresh).2

/-- A walk passes dates that follow the day taken before. -/
theorem follows_walk (periods : Nat) (period : Int) (taken : Option Candidate) (emitted : Nat) :
    Follows taken ((o.walk ctx cal periods period taken emitted).items answers) := by
  induction periods generalizing period taken emitted with
  | zero => exact follows_nil taken
  | succ periods ih =>
    rw [walk, Occurrences.items_after]
    cases (o.cursor ctx period).outcome answers with
    | error e => exact follows_nil taken
    | ok start =>
      dsimp only
      split
      · exact follows_nil taken
      · rw [Occurrences.items_after]
        cases hperiod : (o.periodDays ctx cal start).outcome answers with
        | error e => exact follows_nil taken
        | ok days =>
          have hfresh := chosenDays_sublist (o := o) taken emitted days
          have hdays := (pairwise_periodDays hperiod).sublist (hfresh.trans List.filter_sublist)
          dsimp only
          cases hchosen : o.chosenDays taken emitted days with
          | nil =>
            dsimp only
            split
            · exact follows_nil taken
            · exact ih (period + 1) taken emitted
          | cons first rest =>
            rw [hchosen] at hfresh hdays
            refine follows_yieldAll hdays
              (fun c hc => before_of_mem_freshDays (hfresh.subset hc)) ?_
            rw [List.getLast?_cons, Option.some_or]
            split
            · exact follows_nil _
            · exact ih (period + 1) _ _

/-- **The occurrences of a rule are in strictly increasing order.** -/
theorem occurrences_increase (ctx : Context) (answers : Answers) (o : RuleOptions) :
    ((o.occurrences ctx).items answers).Pairwise fun a b => a.toLunarDay < b.toLunarDay := by
  unfold occurrences
  split
  · exact List.Pairwise.nil
  · rw [Occurrences.items_after]
    cases (ctx.serve o.variant).outcome answers with
    | error e => exact List.Pairwise.nil
    | ok cal => exact (follows_walk o.periodLimit.toNat 0 none 0).increasing

end RuleOptions

end HijriRecurrence
