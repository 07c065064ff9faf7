import HijriRecurrence.Proofs.Recurrence.CivilQuery
import HijriRecurrence.Proofs.Rule.TablePeriods

/-!
# Rules within a month table

A rule of the observed calendar walks from the first date to the last.  If the host keeps a table
that has both dates, the walk may still need a day or a month beyond the table: it looks for the
next period before it looks at the last date.  It stays within the table (`StaysWithin`) when its
periods are in the table up to one that ends it (`Stops`):

* the limit on periods, or the count, is reached;
* the next period starts after the last date, on a day of the table;
* one of the periods proposes a day after the last date.

Then the walk does not fail, and it yields every day from the first date to the last that any period
proposes, cut to the count (`occurrences_enumerate_within`).  It is enough that the table reaches one
interval beyond the last date (`staysWithin_of_room`).
-/

namespace HijriRecurrence.RuleOptions

open LunarDate MonthTable

variable {ctx : Context} {answers : Answers} {o : RuleOptions} {t : MonthTable} {host : Host}
  {cal : Calendar} {known : Int} {last : LunarDate}

/-! ### Days that a rule stands for -/

/-- The days that the first periods of a rule stand for, up to some number of them, before they are
cut to the count. -/
structure EnumeratesIn (ctx : Context) (answers : Answers) (o : RuleOptions) (cal : Calendar)
    (periods : Int) (days : List LunarDay) : Prop where
  increasing : days.Pairwise (· < ·)
  mem_iff : ∀ d, d ∈ days ↔
    (∃ k, 0 ≤ k ∧ k < periods ∧ o.ProposesIn ctx answers cal k d) ∧
      o.start.toLunarDay ≤ d ∧ ∀ last ∈ o.last, d ≤ last.toLunarDay

/-- More periods stand for no more days, when they propose none up to the last date. -/
theorem EnumeratesIn.extend {periods more : Int} {days : List LunarDay} (hle : periods ≤ more)
    (h : o.EnumeratesIn ctx answers cal periods days) (hlast : o.last = some last)
    (hmore : ∀ k, periods ≤ k → ∀ d, 0 ≤ k → o.ProposesIn ctx answers cal k d →
      last.toLunarDay < d) : o.EnumeratesIn ctx answers cal more days := by
  refine ⟨h.increasing, fun d => (h.mem_iff d).trans ?_⟩
  constructor
  · rintro ⟨⟨k, hpos, hlt, hd⟩, hrange⟩
    exact ⟨⟨k, hpos, by omega, hd⟩, hrange⟩
  · rintro ⟨⟨k, hpos, hlt, hd⟩, hstart, hwithin⟩
    refine ⟨⟨k, hpos, ?_, hd⟩, hstart, hwithin⟩
    by_contra hge
    exact hwithin last hlast (hmore k (Int.not_lt.1 hge) d hpos hd)

namespace KnownPeriods

variable {first : Int → LunarDay} {proposed : Int → List LunarDay}

theorem proposesIn_iff (h : o.KnownPeriods ctx answers cal known first proposed) {k : Int}
    (hpos : 0 ≤ k) (hlt : k < known) {d : LunarDay} :
    o.ProposesIn ctx answers cal k d ↔ d ∈ proposed k := by
  obtain ⟨c, hcursor, -, hdays⟩ := h.outcome k hpos hlt
  constructor
  · rintro ⟨c', candidates, hcursor', hdays', hd⟩
    obtain rfl := Except.ok.inj (hcursor.symm.trans hcursor')
    obtain rfl := Except.ok.inj (hdays.symm.trans hdays')
    obtain ⟨e, he, heq⟩ := List.mem_map.1 hd
    exact Candidate.ofDay_injective heq ▸ he
  · exact fun hd => ⟨c, _, hcursor, hdays, List.mem_map_of_mem hd⟩

/-- What known periods declare is what they stand for. -/
theorem enumeratesIn (h : o.KnownPeriods ctx answers cal known first proposed) (hpos : 0 ≤ known)
    {days : List LunarDay} (hdays : o.Declared proposed 0 known.toNat none days) :
    o.EnumeratesIn ctx answers cal known days := by
  refine ⟨hdays.increasing, fun d => (hdays.mem_iff d).trans ?_⟩
  rw [isWithin_iff, isNew_none_iff]
  constructor
  · rintro ⟨⟨k, hk, hlt, hd⟩, hlast, hstart⟩
    exact ⟨⟨k, hk, by omega, (h.proposesIn_iff hk (by omega)).2 hd⟩, hstart, hlast⟩
  · rintro ⟨⟨k, hk, hlt, hd⟩, hstart, hlast⟩
    exact ⟨⟨k, hk, by omega, (h.proposesIn_iff hk hlt).1 hd⟩, hlast, hstart⟩

end KnownPeriods

/-! ### Walks within a table -/

/-- What ends the walk of a rule by some number of periods. -/
inductive Stops (ctx : Context) (answers : Answers) (o : RuleOptions) (cal : Calendar)
    (t : MonthTable) (last : LunarDay) (known : Int) : Prop
  /-- No more periods are walked. -/
  | limit (hlimit : o.periodLimit ≤ known)
  /-- The next period starts after the last date, on a day of the table. -/
  | start (hcursor : o.HasCursor t known) (hafter : o.StartsAfter t last known)
  /-- A period proposes a day after the last date. -/
  | past {k : Int} {d : LunarDay} (hpos : 0 ≤ k) (hlt : k < known)
    (hproposes : o.ProposesIn ctx answers cal k d) (hstart : o.start.toLunarDay ≤ d)
    (hlast : last < d)
  /-- The periods propose as many days as make the count. -/
  | count {n : Int} {days : List LunarDay} (hcount : o.count = some n) (hlength : n ≤ days.length)
    (hincreasing : days.Pairwise (· < ·))
    (hdays : ∀ d ∈ days, (o.start.toLunarDay ≤ d ∧ d ≤ last) ∧
      ∃ k, 0 ≤ k ∧ k < known ∧ o.ProposesIn ctx answers cal k d)

/-- The walk of a rule stays within a table: it stops by some number of periods that the table has. -/
structure StaysWithin (ctx : Context) (answers : Answers) (o : RuleOptions) (cal : Calendar)
    (t : MonthTable) (last : LunarDay) (known : Int) : Prop where
  pos : 0 ≤ known
  periods : ∀ k, 0 ≤ k → k < known → o.HasPeriod t k
  stops : o.Stops ctx answers cal t last known

/-- Days that are all among others are no more than these. -/
theorem length_le_of_forall_mem {days others : List LunarDay} (h : days.Pairwise (· < ·))
    (hmem : ∀ d ∈ days, d ∈ others) : days.length ≤ others.length := by
  have hnodup : days.Nodup := by
    refine h.imp ?_
    rintro a _ hlt rfl
    exact LunarDay.lt_irrefl a hlt
  exact (hnodup.subperm hmem).length_le

section Table

variable (ho : o.Normalized ctx answers)
  (hserve : (ctx.serve o.variant).outcome answers = .ok (Observed.calendar host))
  (hkeeps : (Observed.calendar host).Keeps answers t) (hk : host.Keeps t) (hhost : host.IsOrdered)
  (hstart : t.IsDay o.start.toLunarDay) (hlast : o.last = some last)
  (hlastDay : t.IsDay last.toLunarDay)

include ho hserve hk hhost hstart hlastDay in
/-- From a period that starts after the last date on, nothing is proposed up to the last date. -/
theorem lt_of_proposesIn (hafter : o.StartsAfter t last.toLunarDay known) {k : Int}
    (hle : known ≤ k) {d : LunarDay} (hpos : 0 ≤ k)
    (hd : o.ProposesIn ctx answers cal k d) : last.toLunarDay < d :=
  lt_of_startsAfter hhost hk hlastDay (startsAfter_mono ho hafter hle)
    (liesAt_of_proposesIn ho hserve hhost (hk.hasOn hstart) hpos hd)

include ho hserve hkeeps hstart hlast hlastDay in
/-- The walk goes no further than a period that starts after the last date. -/
theorem walk_yields_nil (hcursor : o.HasCursor t known)
    (hafter : o.StartsAfter t last.toLunarDay known) (periods : Nat) (taken : Option Candidate)
    (emitted : Nat) :
    (o.walk ctx (Observed.calendar host) (periods + 1) known taken emitted).Yields answers [] := by
  obtain ⟨c, hfound, -, -, hc, hat⟩ := exists_cursor ho hserve hkeeps hstart hcursor
  have hfirst := lt_firstOfPeriod hlastDay hafter hc hat
  have hpast : o.isWithin (o.periodStart c) = false := by
    rw [periodStart_eq, Bool.eq_false_iff]
    exact fun hwithin => isWithin_iff.1 hwithin last hlast hfirst
  unfold walk
  refine .after hfound ?_
  rw [isPast_ofDay, hpast, if_pos (by rfl)]
  exact Occurrences.yields_done

include ho hserve hkeeps hk hhost hstart hlast hlastDay in
/-- **A rule whose walk stays within a table yields what its periods stand for, cut to the count.**
These are all its periods, or as many as make the count. -/
theorem occurrences_yield_within
    (h : o.StaysWithin ctx answers (Observed.calendar host) t last.toLunarDay known) :
    ∃ periods days, o.EnumeratesIn ctx answers (Observed.calendar host) periods days ∧
      (periods = o.periodLimit ∨
        periods ≤ o.periodLimit ∧ ∃ n : Int, o.count = some n ∧ n ≤ days.length) ∧
      (o.occurrences ctx).Yields answers ((o.cutToCount days).map o.occurrenceOn) := by
  obtain ⟨hpos, hperiods, hstops⟩ := h
  have hlimitPos := periodLimit_pos o
  by_cases hlimit : o.periodLimit ≤ known
  · -- all periods are in the table
    obtain ⟨first, proposed, hknown⟩ := exists_knownPeriods ho hserve hkeeps hk hhost hstart hlast
      hlastDay fun k hk0 hlt => hperiods k hk0 (Int.lt_of_lt_of_le hlt hlimit)
    obtain ⟨days, hdays, hyields⟩ := occurrences_yield_known ho hknown hserve
      (Int.le_of_lt hlimitPos) (Int.le_refl _) (Or.inl rfl)
    exact ⟨_, days, hknown.enumeratesIn (Int.le_of_lt hlimitPos) hdays, Or.inl rfl, hyields⟩
  · have hle : known ≤ o.periodLimit := Int.le_of_lt (Int.not_le.1 hlimit)
    obtain ⟨first, proposed, hknown⟩ := exists_knownPeriods ho hserve hkeeps hk hhost hstart hlast
      hlastDay hperiods
    -- whatever ends the walk, what it yields is declared by the known periods
    have hyield := occurrences_yield_known ho hknown hserve hpos hle
    cases hstops with
    | limit hreached => exact absurd hreached hlimit
    | start hcursor hafter =>
      obtain ⟨days, hdays, hyields⟩ := hyield (Or.inr (Or.inr fun periods taken emitted =>
        walk_yields_nil ho hserve hkeeps hstart hlast hlastDay hcursor hafter periods taken emitted))
      refine ⟨_, days, (hknown.enumeratesIn hpos hdays).extend hle hlast ?_, Or.inl rfl, hyields⟩
      exact fun k hge d hk0 => lt_of_proposesIn ho hserve hk hhost hstart hlastDay hafter hge hk0
    | @past k d hk0 hlt hproposes hfrom hafter =>
      obtain ⟨days, hdays, hyields⟩ := hyield (Or.inr (Or.inl (Or.inl ⟨k, hk0, by omega, d,
        (hknown.proposesIn_iff hk0 hlt).1 hproposes, hfrom,
        fun hwithin => isWithin_iff.1 hwithin last hlast hafter⟩)))
      have hlies := liesAt_of_proposesIn ho hserve hhost (hk.hasOn hstart) hk0 hproposes
      have hstartsAfter : o.StartsAfter t last.toLunarDay known :=
        startsAfter_of_lt hhost hk ho hlastDay hlies hafter hlt
      refine ⟨_, days, (hknown.enumeratesIn hpos hdays).extend hle hlast ?_, Or.inl rfl, hyields⟩
      exact fun k hge d hk0 =>
        lt_of_proposesIn ho hserve hk hhost hstart hlastDay hstartsAfter hge hk0
    | @count n found hcount hlength hincreasing hfound =>
      have henough : ∀ days, o.Declared proposed 0 known.toNat none days → n ≤ days.length := by
        intro days hdays
        have henumerates := hknown.enumeratesIn hpos hdays
        have hmem : ∀ d ∈ found, d ∈ days := by
          intro d hd
          obtain ⟨⟨hfrom, hto⟩, hproposed⟩ := hfound d hd
          refine (henumerates.mem_iff d).2 ⟨hproposed, hfrom, fun e he => ?_⟩
          obtain rfl := Option.some.inj (hlast.symm.trans he)
          exact hto
        have hle := length_le_of_forall_mem hincreasing hmem
        omega
      obtain ⟨days, hdays, hyields⟩ := hyield (Or.inr (Or.inl (Or.inr fun days hdays => by
        have hreached := henough days hdays
        rw [isReached, hcount, Option.any_some, decide_eq_true_eq]
        omega)))
      exact ⟨known, days, hknown.enumeratesIn hpos hdays,
        Or.inr ⟨hle, n, hcount, henough days hdays⟩, hyields⟩

end Table

/-! ### Room beyond the last date -/

/-- Of steps in a row, all up to some number stay within a bound, and the next one is beyond it by a
step at most. -/
theorem exists_step_beyond (base bound : Int) {step : Int} (h : 1 ≤ step) :
    ∃ n, 0 ≤ n ∧ (∀ k, 0 ≤ k → k < n → base ≤ base + k * step ∧ base + k * step ≤ bound) ∧
      bound < base + n * step ∧
        (n = 0 ∨ base ≤ base + n * step ∧ base + n * step ≤ bound + step) := by
  by_cases hbase : bound < base
  · exact ⟨0, Int.le_refl 0, fun k hk hlt => by omega, by omega, Or.inl rfl⟩
  · have hdiv := Int.mul_ediv_add_emod (bound - base) step
    have hmod := Int.emod_nonneg (bound - base) (show step ≠ 0 by omega)
    have hmod' := Int.emod_lt_of_pos (bound - base) (show 0 < step by omega)
    have hquotient : 0 ≤ (bound - base) / step := Int.ediv_nonneg (by omega) (by omega)
    have hnext : ((bound - base) / step + 1) * step = (bound - base) / step * step + step := by
      rw [Int.add_mul, Int.one_mul]
    rw [Int.mul_comm] at hdiv
    refine ⟨(bound - base) / step + 1, by omega, fun k hk hlt => ?_, by omega, Or.inr ?_⟩
    · have hle : k * step ≤ (bound - base) / step * step :=
        Int.mul_le_mul_of_nonneg_right (by omega) (by omega)
      have hnonneg : 0 ≤ k * step := Int.mul_nonneg hk (by omega)
      omega
    · omega

/-- Days from one period to the next, for rules that count days. -/
def dayStep (o : RuleOptions) : Int :=
  match o.frequency with
  | .weekly => 7 * o.interval
  | .daily => o.interval
  | _ => 1

theorem daysTo_eq_mul (hy : o.frequency ≠ .yearly) (hm : o.frequency ≠ .monthly) (k : Int) :
    o.daysTo k = k * o.dayStep := by
  unfold daysTo dayStep
  cases hf : o.frequency with
  | yearly => exact absurd hf hy
  | monthly => exact absurd hf hm
  | weekly => exact Int.mul_left_comm ..
  | daily => rfl
  | hourly | minutely | secondly => exact (Int.mul_one k).symm

/-- A table reaches one interval of a rule beyond a day. -/
def HasRoomAfter (o : RuleOptions) (t : MonthTable) (d : LunarDay) : Prop :=
  match o.frequency with
  | .yearly => t.HasYear (d.year + o.interval)
  | .monthly => t.Has (monthIndex d + o.interval)
  | _ => t.HasNumber (t.numberOf d + o.dayStep)

theorem hasCursor_zero (hstart : t.IsDay o.start.toLunarDay) : o.HasCursor t 0 := by
  unfold HasCursor yearAt monthAt numberAt daysTo
  cases hf : o.frequency with
  | yearly | monthly =>
    dsimp only
    rw [Int.zero_mul, Int.add_zero]
    exact hstart.2.1
  | weekly | daily | hourly | minutely | secondly =>
    simpa using hasNumber_numberOf hstart

/-- A rule whose periods are steps in a row stays within a table that has them up to a bound, and
reaches one step beyond it. -/
theorem staysWithin_of_steps {d : LunarDay} (base bound : Int) {step : Int} (hstep : 1 ≤ step)
    (hstart : t.IsDay o.start.toLunarDay)
    (hperiod : ∀ k, base ≤ base + k * step → base + k * step ≤ bound → o.HasPeriod t k)
    (hcursor : ∀ k, base ≤ base + k * step → base + k * step ≤ bound + step → o.HasCursor t k)
    (hafter : ∀ k, bound < base + k * step → o.StartsAfter t d k) :
    ∃ known, o.StaysWithin ctx answers cal t d known := by
  obtain ⟨known, hpos, hbefore, hbeyond, hnear⟩ := exists_step_beyond base bound hstep
  refine ⟨known, hpos, fun k hk hlt => ?_, .start ?_ (hafter known hbeyond)⟩
  · obtain ⟨hlow, hhigh⟩ := hbefore k hk hlt
    exact hperiod k hlow hhigh
  · rcases hnear with rfl | ⟨hlow, hhigh⟩
    · exact hasCursor_zero hstart
    · exact hcursor known hlow hhigh

/-- Rules that count days stay within a table that has room. -/
theorem staysWithin_of_numbers (ho : o.Normalized ctx answers) (hy : o.frequency ≠ .yearly)
    (hm : o.frequency ≠ .monthly) (hstart : t.IsDay o.start.toLunarDay) {d : LunarDay}
    (hroom : t.HasNumber (t.numberOf d + o.dayStep)) :
    ∃ known, o.StaysWithin ctx answers cal t d known := by
  have hi := ho.interval
  have hstep : 1 ≤ o.dayStep := by
    unfold dayStep
    split <;> omega
  have hfirst := hasNumber_numberOf hstart
  have hbetween {n : Int} (hlow : t.numberOf o.start.toLunarDay ≤ n)
      (hhigh : n ≤ t.numberOf d + o.dayStep) : t.HasNumber n :=
    ⟨Int.le_trans hfirst.1 hlow, Int.lt_of_le_of_lt hhigh hroom.2⟩
  have hnumber (k : Int) : t.numberOf o.start.toLunarDay + k * o.dayStep = o.numberAt t k :=
    congrArg (t.numberOf o.start.toLunarDay + ·) (daysTo_eq_mul hy hm k).symm
  refine staysWithin_of_steps (t.numberOf o.start.toLunarDay) (t.numberOf d) hstep hstart
    (fun k hlow hhigh => ?_) (fun k hlow hhigh => ?_) fun k hbeyond => ?_
  · rw [hnumber] at hlow hhigh
    unfold HasPeriod
    cases hf : o.frequency with
    | yearly => exact absurd hf hy
    | monthly => exact absurd hf hm
    | weekly =>
      have hweek : o.dayStep = 7 * o.interval := by rw [dayStep, hf]
      exact ⟨hbetween hlow (by omega), fun i hi0 hi7 _ => hbetween (by omega) (by omega)⟩
    | daily | hourly | minutely | secondly => exact hbetween hlow (by omega)
  · rw [hnumber] at hlow hhigh
    unfold HasCursor
    cases hf : o.frequency with
    | yearly => exact absurd hf hy
    | monthly => exact absurd hf hm
    | weekly | daily | hourly | minutely | secondly => exact hbetween hlow hhigh
  · rw [hnumber] at hbeyond
    unfold StartsAfter
    cases hf : o.frequency with
    | yearly => exact absurd hf hy
    | monthly => exact absurd hf hm
    | weekly | daily | hourly | minutely | secondly => exact hbeyond

/-- Rules that count years stay within a table of whole years that has room. -/
theorem staysWithin_of_years (ho : o.Normalized ctx answers) (hf : o.frequency = .yearly)
    (ht : t.WholeYears) (hstart : t.IsDay o.start.toLunarDay) {d : LunarDay}
    (hroom : t.HasYear (d.year + o.interval)) :
    ∃ known, o.StaysWithin ctx answers cal t d known := by
  have hi := ho.interval
  have hm := hstart.1
  have hfirst : t.HasYear o.start.year := hstart.2.1.hasYear ht hm
  refine staysWithin_of_steps o.start.year d.year hi hstart
    (fun k hlow hhigh => ?_) (fun k hlow hhigh => ?_) fun k hbeyond => ?_
  · unfold HasPeriod yearAt
    simp only [hf]
    exact ⟨⟨hfirst.1.between hroom.2 (by omega), hfirst.1.between hroom.2 (by omega)⟩,
      fun _ _ _ => hfirst.1.between hroom.2 (by omega)⟩
  · unfold HasCursor yearAt
    simp only [hf]
    exact hfirst.1.between hroom.2 (by omega)
  · unfold StartsAfter yearAt
    simp only [hf]
    exact hbeyond

/-- Rules that count months stay within a table that has room. -/
theorem staysWithin_of_months (ho : o.Normalized ctx answers) (hf : o.frequency = .monthly)
    (hstart : t.IsDay o.start.toLunarDay) {d : LunarDay}
    (hroom : t.Has (monthIndex d + o.interval)) :
    ∃ known, o.StaysWithin ctx answers cal t d known := by
  have hi := ho.interval
  refine staysWithin_of_steps (monthIndex o.start.toLunarDay) (monthIndex d) hi hstart
    (fun k hlow hhigh => ?_) (fun k hlow hhigh => ?_) fun k hbeyond => ?_
  · unfold HasPeriod monthAt
    simp only [hf]
    exact hstart.2.1.between hroom ⟨hlow, by omega⟩
  · unfold HasCursor monthAt
    simp only [hf]
    exact hstart.2.1.between hroom ⟨hlow, hhigh⟩
  · unfold StartsAfter monthAt
    simp only [hf]
    exact hbeyond

/-- **A rule stays within a table of whole years that reaches one interval beyond the last date.** -/
theorem staysWithin_of_room (ho : o.Normalized ctx answers) (ht : t.WholeYears)
    (hstart : t.IsDay o.start.toLunarDay) {d : LunarDay} (hroom : o.HasRoomAfter t d) :
    ∃ known, o.StaysWithin ctx answers cal t d known := by
  unfold HasRoomAfter at hroom
  cases hf : o.frequency with
  | yearly =>
    simp only [hf] at hroom
    exact staysWithin_of_years ho hf ht hstart hroom
  | monthly =>
    simp only [hf] at hroom
    exact staysWithin_of_months ho hf hstart hroom
  | weekly | daily | hourly | minutely | secondly =>
    simp only [hf] at hroom
    exact staysWithin_of_numbers ho (by simp [hf]) (by simp [hf]) hstart hroom

/-! ### The observed calendar -/

/-- **A rule of the observed calendar ends by its last date, if it stays within a table that the host
keeps.**  It does not fail, and it yields every day from the first date to the last that a period
proposes, each with the time of day of the first date, up to the count. -/
theorem occurrences_enumerate_within (ho : o.Normalized ctx (Observed.answers ctx.host))
    (hv : ctx.resolve o.variant = .ummAlQura) (hk : ctx.host.Keeps t) (hhost : ctx.host.IsOrdered)
    (hstart : t.IsDay o.start.toLunarDay) (hlast : o.last = some last)
    (hlastDay : t.IsDay last.toLunarDay)
    (h : o.StaysWithin ctx (Observed.answers ctx.host) (Observed.calendar ctx.host) t
      last.toLunarDay known) :
    ∃ periods days, o.EnumeratesIn ctx (Observed.answers ctx.host) (Observed.calendar ctx.host)
        periods days ∧
      (periods = o.periodLimit ∨
        periods ≤ o.periodLimit ∧ ∃ n : Int, o.count = some n ∧ n ≤ days.length) ∧
      (o.occurrences ctx).Yields (Observed.answers ctx.host)
        ((o.cutToCount days).map o.occurrenceOn) := by
  have hserve : (ctx.serve o.variant).outcome (Observed.answers ctx.host) =
      .ok (Observed.calendar ctx.host) := by
    rw [Context.serve, hv]
    rfl
  exact occurrences_yield_within ho hserve (Observed.keeps hk) hk hhost hstart hlast hlastDay h

/-- A rule without parts from one day to another, by the Umm al-Qura tables. -/
def fromTo (frequency : Frequency) (first last : LunarDay) : RuleOptions where
  frequency := frequency
  start := { first with variant := .ummAlQura }
  last := some { last with variant := .ummAlQura }
  variant := .ummAlQura

open Recurrence in
theorem normalized_fromTo (frequency : Frequency) {first last : LunarDay}
    (hfirst : UmmAlQura.table.IsDay first) (hlast : UmmAlQura.table.IsDay last) :
    (fromTo frequency first last).Normalized withTables (Observed.answers UmmAlQura.host) where
  interval := Int.le_refl 1
  count n hn := by cases hn
  start := built_of_isDay_table hfirst
  start_variant := rfl
  last d hd := by
    obtain rfl := Option.some.inj hd
    exact ⟨built_of_isDay_table hlast, rfl⟩
  positions n hn := absurd hn List.not_mem_nil
  months n hn := absurd hn List.not_mem_nil
  monthDays n hn := absurd hn List.not_mem_nil
  monthDaysFromEnd n hn := absurd hn List.not_mem_nil
  yearDays n hn := absurd hn List.not_mem_nil
  weekdays n hn := absurd hn List.not_mem_nil
  nthWeekdays n hn := absurd hn List.not_mem_nil
  hours n hn := absurd hn List.not_mem_nil
  minutes n hn := absurd hn List.not_mem_nil
  seconds n hn := absurd hn List.not_mem_nil

def weeksOfRamadan : RuleOptions := fromTo .weekly ⟨1446, 9, 1⟩ ⟨1446, 9, 29⟩

open Recurrence in
theorem occurrences_enumerate_within_weeksOfRamadan :
    ∃ known periods days,
      weeksOfRamadan.StaysWithin withTables (Observed.answers UmmAlQura.host)
        (Observed.calendar UmmAlQura.host) UmmAlQura.table ⟨1446, 9, 29⟩ known ∧
      weeksOfRamadan.EnumeratesIn withTables (Observed.answers UmmAlQura.host)
        (Observed.calendar UmmAlQura.host) periods days ∧
      periods = weeksOfRamadan.periodLimit ∧
      (weeksOfRamadan.occurrences withTables).Yields (Observed.answers UmmAlQura.host)
        (days.map weeksOfRamadan.occurrenceOn) := by
  have hfirst : UmmAlQura.table.IsDay ⟨1446, 9, 1⟩ := by decide +kernel
  have hlast : UmmAlQura.table.IsDay ⟨1446, 9, 29⟩ := by decide +kernel
  have ho : weeksOfRamadan.Normalized withTables (Observed.answers UmmAlQura.host) :=
    normalized_fromTo .weekly hfirst hlast
  have hroom : UmmAlQura.table.HasNumber (UmmAlQura.table.numberOf ⟨1446, 9, 29⟩ + 7) := by
    decide +kernel
  have hstays : ∃ known, weeksOfRamadan.StaysWithin withTables (Observed.answers UmmAlQura.host)
      (Observed.calendar UmmAlQura.host) UmmAlQura.table ⟨1446, 9, 29⟩ known :=
    staysWithin_of_room ho UmmAlQura.wholeYears_table hfirst hroom
  obtain ⟨known, hstays⟩ := hstays
  obtain ⟨periods, days, hdays, hall, hyields⟩ := occurrences_enumerate_within ho
    (resolve_withTables _) UmmAlQura.host_keeps UmmAlQura.host_isOrdered hfirst rfl hlast hstays
  refine ⟨known, periods, days, hstays, hdays, ?_, hyields⟩
  rcases hall with hlimit | ⟨-, n, hcount, -⟩
  · exact hlimit
  · cases hcount

/-- Every day from the last day of the tables to this same day. -/
def lastDayOfTables : RuleOptions := fromTo .daily ⟨1500, 12, 30⟩ ⟨1500, 12, 30⟩

open Recurrence in
/-- **A walk looks for the next period before it looks at the last date.**  On the last day of the
tables it yields the day and then fails, although no day after it can be one of the rule's. -/
theorem occurrences_fail_lastDayOfTables :
    lastDayOfTables.Normalized withTables (Observed.answers UmmAlQura.host) ∧
      UmmAlQura.table.IsDay ⟨1500, 12, 30⟩ ∧
      (lastDayOfTables.occurrences withTables).items (Observed.answers UmmAlQura.host) =
        [{ year := 1500, month := 12, day := 30, variant := .ummAlQura }] ∧
      ∃ e, (lastDayOfTables.occurrences withTables).ending (Observed.answers UmmAlQura.host) =
        some e := by
  have hday : UmmAlQura.table.IsDay ⟨1500, 12, 30⟩ := by decide +kernel
  have ho : lastDayOfTables.Normalized withTables (Observed.answers UmmAlQura.host) :=
    normalized_fromTo .daily hday hday
  -- the next day is not in the tables
  have hnext : ∃ e, (lastDayOfTables.cursor withTables 1).outcome
      (Observed.answers UmmAlQura.host) = .error e := by
    cases hcursor : (lastDayOfTables.cursor withTables 1).outcome
        (Observed.answers UmmAlQura.host) with
    | error e => exact ⟨e, rfl⟩
    | ok c =>
      have hon := hasOn_of_addDays (d := lastDayOfTables.start) outcome_serve_withTables
        UmmAlQura.host_isOrdered ho.start.inRange (UmmAlQura.host_keeps.hasOn hday)
        (by decide : (0 : Int) ≤ 1) hcursor
      have hfound : UmmAlQura.host (CivilDate.ofDayNumber
          (UmmAlQura.table.numberOf ⟨1500, 12, 30⟩ + 1)) = .ok c.toLunarDay := hon.2
      have hnone : (UmmAlQura.host (CivilDate.ofDayNumber
          (UmmAlQura.table.numberOf ⟨1500, 12, 30⟩ + 1))).toOption = none := by decide +kernel
      rw [hfound] at hnone
      cases hnone
  obtain ⟨e, hnext⟩ := hnext
  have hcursor : (lastDayOfTables.cursor withTables 0).outcome (Observed.answers UmmAlQura.host) =
      .ok lastDayOfTables.start := rfl
  have hdays : (lastDayOfTables.periodDays withTables (Observed.calendar UmmAlQura.host)
      lastDayOfTables.start).outcome (Observed.answers UmmAlQura.host) =
        .ok [.ofDay ⟨1500, 12, 30⟩] := rfl
  have hdate : (lastDayOfTables.dateOn withTables (.ofDay ⟨1500, 12, 30⟩)).outcome
      (Observed.answers UmmAlQura.host) = .ok lastDayOfTables.start := built_of_isDay_table hday
  have hwithin : lastDayOfTables.isPast (.ofDay ⟨1500, 12, 30⟩) = false := by decide
  have hchosen : lastDayOfTables.chosenDays none 0 [.ofDay ⟨1500, 12, 30⟩] =
      [.ofDay ⟨1500, 12, 30⟩] := rfl
  have hends : lastDayOfTables.endsIn none 0 [.ofDay ⟨1500, 12, 30⟩] = false := by decide
  obtain ⟨more, hlimit⟩ : ∃ more, lastDayOfTables.periodLimit.toNat = more + 1 + 1 := ⟨99998, rfl⟩
  have hcount : lastDayOfTables.count ≠ some 0 := by decide
  have hserve : (withTables.serve lastDayOfTables.variant).outcome
      (Observed.answers UmmAlQura.host) = .ok (Observed.calendar UmmAlQura.host) :=
    outcome_serve_withTables
  have hstartsWithin :
      lastDayOfTables.isPast (.ofDay (lastDayOfTables.periodStart lastDayOfTables.start)) = false :=
    hwithin
  refine ⟨ho, hday, ?_, e, ?_⟩
  · rw [occurrences, if_neg hcount, Occurrences.items_after, hserve, hlimit]
    simp only [walk, Occurrences.yieldAll, Occurrences.items_after, hcursor, hdays, hchosen, hdate,
      hends, hstartsWithin, Bool.false_eq_true, if_false, Occurrences.items, Int.zero_add, hnext]
    rfl
  · rw [occurrences, if_neg hcount, Occurrences.ending_after, hserve, hlimit]
    simp only [walk, Occurrences.yieldAll, Occurrences.ending_after, hcursor, hdays, hchosen, hdate,
      hends, hstartsWithin, Bool.false_eq_true, if_false, Occurrences.ending, Int.zero_add, hnext]

end HijriRecurrence.RuleOptions
