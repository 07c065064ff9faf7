import HijriRecurrence.Proofs.Calendar.KeptCandidates
import HijriRecurrence.Proofs.Observed.DayShift
import HijriRecurrence.Proofs.Rule.Enumeration

/-!
# Periods within a month table

The periods of a rule have places in a month table: a year, a month, or the number of a day, counted
from the first date (`yearAt`, `monthAt`, `numberAt`).  Where the table has what a period needs
(`HasPeriod`), the period is known (`exists_knownPeriods`).

Elsewhere the observed calendar may answer or fail.  But a day that a period proposes is in the place
of the period even there, as long as the host is in order (`liesAt_of_proposesIn`).  So what lies
after a day in the table is told from the places alone:

* `lt_of_startsAfter` — a period that starts after a day proposes only days after it;
* `startsAfter_of_lt` — all periods after one that proposes a day after it start after it.
-/

namespace HijriRecurrence.RuleOptions

open LunarDate MonthTable Tabular

variable {ctx : Context} {answers : Answers} {o : RuleOptions} {t : MonthTable} {host : Host}
  {cal : Calendar} {j k : Int}

/-! ### Places of periods -/

/-- The year of a period, for rules that count years. -/
def yearAt (o : RuleOptions) (k : Int) : Int := o.start.year + k * o.interval

/-- The month of a period, for rules that count months. -/
def monthAt (o : RuleOptions) (k : Int) : Int := monthIndex o.start.toLunarDay + k * o.interval

/-- The number of the first day of a period, for rules that count days. -/
def numberAt (o : RuleOptions) (t : MonthTable) (k : Int) : Int :=
  t.numberOf o.start.toLunarDay + o.daysTo k

/-- A table has the day on which a period is found. -/
def HasCursor (o : RuleOptions) (t : MonthTable) (k : Int) : Prop :=
  match o.frequency with
  | .yearly => t.Has ((o.yearAt k - 1) * 12 + (o.start.month - 1))
  | .monthly => t.Has (o.monthAt k)
  | _ => t.HasNumber (o.numberAt t k)

/-- A table has what a period needs.  A year is looked at as a whole; when it is looked at for
weekdays and days are pushed forward, so is the first day after it.  Of a week the days on the
rule's weekdays are reached one by one. -/
def HasPeriod (o : RuleOptions) (t : MonthTable) (k : Int) : Prop :=
  match o.frequency with
  | .yearly => t.HasYear (o.yearAt k) ∧
    (o.months = [] → o.weekdays ≠ [] → o.skip = .forward → t.Has (o.yearAt k * 12))
  | .monthly => t.Has (o.monthAt k)
  | .weekly => t.HasNumber (o.numberAt t k) ∧ ∀ i : Int, 0 ≤ i → i < 7 →
    o.weekdayNumbers.contains ((o.numberAt t k + i) % 7) = true → t.HasNumber (o.numberAt t k + i)
  | _ => t.HasNumber (o.numberAt t k)

/-- A day of a table is in the place of a period. -/
def IsAt (o : RuleOptions) (t : MonthTable) (k : Int) (d : LunarDay) : Prop :=
  match o.frequency with
  | .yearly => d.year = o.yearAt k
  | .monthly => monthIndex d = o.monthAt k
  | _ => t.numberOf d = o.numberAt t k

def StartsAfter (o : RuleOptions) (t : MonthTable) (d : LunarDay) (k : Int) : Prop :=
  match o.frequency with
  | .yearly => d.year < o.yearAt k
  | .monthly => monthIndex d < o.monthAt k
  | _ => t.numberOf d < o.numberAt t k

/-- A day is where a period may propose it: in its year or month or on the first day after a month,
on one of the seven days of its week, or on its day. -/
def LiesAt (o : RuleOptions) (host : Host) (t : MonthTable) (k : Int) (d : LunarDay) : Prop :=
  match o.frequency with
  | .yearly => d.year = o.yearAt k ∨ ∃ month, d = firstOfNextMonth (o.yearAt k) month
  | .monthly => d.year = o.monthAt k / 12 + 1 ∧ d.month = o.monthAt k % 12 + 1 ∨
    d = firstOfNextMonth (o.monthAt k / 12 + 1) (o.monthAt k % 12 + 1)
  | .weekly => ∃ i : Int, 0 ≤ i ∧ i < 7 ∧ host.HasOn (o.numberAt t k + i) d
  | _ => host.HasOn (o.numberAt t k) d

theorem HasPeriod.hasCursor (hstart : t.IsDay o.start.toLunarDay) (h : o.HasPeriod t k) :
    o.HasCursor t k := by
  unfold HasPeriod at h
  unfold HasCursor
  cases hf : o.frequency with
  | yearly =>
    simp only [hf] at h ⊢
    exact h.1.has hstart.1
  | monthly =>
    simp only [hf] at h ⊢
    exact h
  | weekly =>
    simp only [hf] at h ⊢
    exact h.1
  | daily | hourly | minutely | secondly =>
    simp only [hf] at h ⊢
    exact h

theorem HasPeriod.hasRoom (h : o.HasPeriod t k) {d : LunarDay} (hd : o.IsAt t k d) :
    o.HasRoom t d := by
  unfold HasPeriod at h
  unfold IsAt at hd
  unfold HasRoom
  cases hf : o.frequency with
  | yearly =>
    simp only [hf] at h hd ⊢
    rwa [hd]
  | weekly =>
    simp only [hf] at h hd ⊢
    rw [hd]
    exact h.2
  | monthly | daily | hourly | minutely | secondly => trivial

/-- What starts after a day is followed by what starts after it. -/
theorem startsAfter_mono (ho : o.Normalized ctx answers) {d : LunarDay} (h : o.StartsAfter t d j)
    (hle : j ≤ k) : o.StartsAfter t d k := by
  have hi := ho.interval
  have hstep : j * o.interval ≤ k * o.interval := Int.mul_le_mul_of_nonneg_right hle (by omega)
  have hdays := daysTo_le_daysTo ho hle
  unfold StartsAfter yearAt monthAt numberAt at *
  cases hf : o.frequency <;> simp only [hf] at h ⊢ <;> omega

/-! ### Cursors -/

/-- **A cursor in the table is found, in the place of its period.** -/
theorem exists_cursor (ho : o.Normalized ctx answers)
    (hserve : (ctx.serve o.variant).outcome answers = .ok cal) (hk : cal.Keeps answers t)
    (hstart : t.IsDay o.start.toLunarDay) (h : o.HasCursor t k) :
    ∃ c, (o.cursor ctx k).outcome answers = .ok c ∧ c.Built ctx answers ∧
      c.variant = o.variant ∧ t.IsDay c.toLunarDay ∧ o.IsAt t k c.toLunarDay := by
  have hserve' := ho.start_variant.symm ▸ hserve
  have hshift : t.HasNumber (t.numberOf o.start.toLunarDay + o.daysTo k) →
      ∃ c, (o.start.addDays ctx (.whole (o.daysTo k))).outcome answers = .ok c ∧
        c.Built ctx answers ∧ c.variant = o.variant ∧ t.IsDay c.toLunarDay ∧
          t.numberOf c.toLunarDay = o.numberAt t k := by
    intro hn
    obtain ⟨e, he, hnumber, hshift⟩ :=
      outcome_addDays_of_hasNumber hserve' hk ho.start hstart hn
    exact ⟨_, hshift, ho.start.onDay_of_isDay hserve' hk he, ho.start_variant, he, hnumber⟩
  unfold HasCursor at h
  unfold cursor IsAt
  cases hf : o.frequency with
  | yearly =>
    simp only [hf] at h ⊢
    obtain ⟨day, hday, hmove⟩ := outcome_moveTo_of_has hserve' hk ho.start hstart hstart.1 h
    exact ⟨_, Calculation.outcome_bind_ok hmove _, ho.start.onDay_of_isDay hserve' hk hday,
      ho.start_variant, hday, rfl⟩
  | monthly =>
    simp only [hf] at h ⊢
    have hindex : (o.monthAt k / 12 + 1 - 1) * 12 + (o.monthAt k % 12 + 1 - 1) = o.monthAt k := by
      omega
    have hhas : t.Has ((o.monthAt k / 12 + 1 - 1) * 12 + (o.monthAt k % 12 + 1 - 1)) :=
      hindex.symm ▸ h
    obtain ⟨day, hday, hmove⟩ :=
      outcome_moveTo_of_has hserve' hk ho.start hstart (by omega) hhas
    exact ⟨_, Calculation.outcome_bind_ok hmove _, ho.start.onDay_of_isDay hserve' hk hday,
      ho.start_variant, hday, hindex⟩
  | weekly | daily | hourly | minutely | secondly =>
    simp only [hf] at h ⊢
    have hfound := hshift h
    simp only [daysTo, hf] at hfound
    exact hfound

/-! ### Days of periods -/

/-- A rule proposes a day in a period of a calendar. -/
def ProposesIn (ctx : Context) (answers : Answers) (o : RuleOptions) (cal : Calendar) (k : Int)
    (d : LunarDay) : Prop :=
  ∃ cursor candidates, (o.cursor ctx k).outcome answers = .ok cursor ∧
    (o.periodDays ctx cal cursor).outcome answers = .ok candidates ∧ .ofDay d ∈ candidates

section Places

variable (ho : o.Normalized ctx answers)
  (hserve : (ctx.serve o.variant).outcome answers = .ok (Observed.calendar host))
  (hhost : host.IsOrdered)

include ho hserve hhost

/-- **What a period proposes lies in its place, in the table or not.** -/
theorem liesAt_of_proposesIn (hstart : host.HasOn (t.numberOf o.start.toLunarDay) o.start.toLunarDay)
    (hpos : 0 ≤ k) {d : LunarDay} (h : o.ProposesIn ctx answers cal k d) : o.LiesAt host t k d := by
  obtain ⟨c, candidates, hcursor, hdays, hd⟩ := h
  have hplace := isProposedAt_of_periodDays hdays _ hd
  have hserve' := ho.start_variant.symm ▸ hserve
  have hshift : ∀ {days : Int}, 0 ≤ days →
      (o.start.addDays ctx (.whole days)).outcome answers = .ok c →
        c.Built ctx answers ∧ c.variant = o.variant ∧
          host.HasOn (t.numberOf o.start.toLunarDay + days) c.toLunarDay := by
    intro days hnonneg hadd
    obtain ⟨hbuilt, hv⟩ := built_of_addDays ho.start hadd
    exact ⟨hbuilt, hv.trans ho.start_variant,
      hasOn_of_addDays hserve' hhost ho.start.inRange hstart hnonneg hadd⟩
  have hstep := ho.step_nonneg hpos
  unfold IsProposedAt at hplace
  unfold cursor at hcursor
  unfold LiesAt numberAt daysTo
  cases hf : o.frequency with
  | yearly =>
    simp only [hf] at hplace hcursor ⊢
    obtain ⟨moved, hmoved, hcursor⟩ := Calculation.outcome_bind_eq_ok.1 hcursor
    obtain ⟨e, rfl, hyear, -⟩ := place_of_moveTo hmoved
    obtain rfl := Except.ok.inj hcursor
    rcases hplace.place with hin | ⟨month, hnext⟩
    · exact Or.inl (hin.trans hyear)
    · refine Or.inr ⟨month, ?_⟩
      rw [Candidate.ofDay_injective hnext]
      exact congrArg (fun year => firstOfNextMonth year month) hyear
  | monthly =>
    simp only [hf] at hplace hcursor ⊢
    obtain ⟨moved, hmoved, hcursor⟩ := Calculation.outcome_bind_eq_ok.1 hcursor
    obtain ⟨e, rfl, hyear, hmonth⟩ := place_of_moveTo hmoved
    obtain rfl := Except.ok.inj hcursor
    rcases hplace.place with ⟨hin, hin'⟩ | hnext
    · exact Or.inl ⟨hin.trans hyear, hin'.trans hmonth⟩
    · refine Or.inr ?_
      rw [Candidate.ofDay_injective hnext]
      exact congrArg₂ firstOfNextMonth hyear hmonth
  | weekly =>
    simp only [hf] at hplace hcursor ⊢
    obtain ⟨hbuilt, hv, hon⟩ := hshift (by omega) hcursor
    obtain ⟨e, heq, hwhere⟩ := hplace
    rw [Candidate.ofDay_injective heq]
    rcases hwhere with rfl | ⟨i, hi, hi', hadd⟩
    · exact ⟨0, Int.le_refl 0, by decide, by rwa [Int.add_zero]⟩
    · exact ⟨i, hi, hi',
        hasOn_of_addDays (hv.symm ▸ hserve) hhost hbuilt.inRange hon hi hadd⟩
  | daily | hourly | minutely | secondly =>
    simp only [hf] at hplace hcursor ⊢
    obtain ⟨-, -, hon⟩ := hshift (by omega) hcursor
    rw [Candidate.ofDay_injective hplace]
    exact hon

end Places

/-! ### The order of places -/

section Order

variable (hhost : host.IsOrdered) (hk : host.Keeps t) {a b c d : LunarDay}

include hhost hk

/-- **A period that starts after a day proposes only days after it.** -/
theorem lt_of_startsAfter (hd : t.IsDay d) (h : o.StartsAfter t d k) (hb : o.LiesAt host t k b) :
    d < b := by
  have hon := hk.hasOn hd
  have hm := hd.1
  unfold StartsAfter at h
  unfold LiesAt at hb
  cases hf : o.frequency with
  | yearly =>
    simp only [hf] at h hb
    rw [LunarDay.lt_def]
    rcases hb with hin | ⟨month, rfl⟩
    · omega
    · unfold firstOfNextMonth
      split <;> dsimp only <;> omega
  | monthly =>
    simp only [hf] at h hb
    unfold monthIndex at h
    rw [LunarDay.lt_def]
    rcases hb with ⟨hyear, hmonth⟩ | rfl
    · omega
    · unfold firstOfNextMonth
      split <;> dsimp only <;> omega
  | weekly =>
    simp only [hf] at h hb
    obtain ⟨i, hi, -, hb⟩ := hb
    exact (hhost.lt_iff_of_hasOn hon hb).2 (by omega)
  | daily | hourly | minutely | secondly =>
    simp only [hf] at h hb
    exact (hhost.lt_iff_of_hasOn hon hb).2 h

/-- **All periods after one that proposes a day after some other day start after the other.** -/
theorem startsAfter_of_lt (ho : o.Normalized ctx answers) (hd : t.IsDay d)
    (hb : o.LiesAt host t j b) (hlt : d < b) (hjk : j < k) : o.StartsAfter t d k := by
  have hon := hk.hasOn hd
  have hm := hd.1
  have hday := hd.2.2.1
  have hstep := ho.step_add_le hjk
  have hi := ho.interval
  unfold LiesAt numberAt daysTo yearAt monthAt at hb
  unfold StartsAfter numberAt daysTo yearAt monthAt
  cases hf : o.frequency with
  | yearly =>
    simp only [hf] at hb ⊢
    rw [LunarDay.lt_def] at hlt
    rcases hb with hin | ⟨month, rfl⟩
    · omega
    · unfold firstOfNextMonth at hlt
      split at hlt <;> dsimp only at hlt <;> omega
  | monthly =>
    simp only [hf] at hb ⊢
    rw [LunarDay.lt_def] at hlt
    generalize hindex : monthIndex d = index
    unfold monthIndex at hindex
    rcases hb with ⟨hyear, hmonth⟩ | rfl
    · omega
    · unfold firstOfNextMonth at hlt
      split at hlt <;> dsimp only at hlt <;> omega
  | weekly =>
    simp only [hf] at hb ⊢
    obtain ⟨i, -, hi', hb⟩ := hb
    have hnumber := (hhost.lt_iff_of_hasOn hon hb).1 hlt
    omega
  | daily | hourly | minutely | secondly =>
    simp only [hf] at hb ⊢
    have hnumber := (hhost.lt_iff_of_hasOn hon hb).1 hlt
    omega

/-- What is proposed in a period is not before its first day, nor before that of an earlier one. -/
theorem firstOfPeriod_le_of_liesAt (ho : o.Normalized ctx answers) (hc : t.IsDay c)
    (hat : o.IsAt t j c) (hle : j ≤ k) (hm : 1 ≤ b.month) (hb1 : 1 ≤ b.day)
    (hb : o.LiesAt host t k b) : o.firstOfPeriod c ≤ b := by
  have hon := hk.hasOn hc
  have hi := ho.interval
  have hstep : j * o.interval ≤ k * o.interval := Int.mul_le_mul_of_nonneg_right hle (by omega)
  have hdays := daysTo_le_daysTo ho hle
  unfold LiesAt at hb
  unfold IsAt at hat
  unfold firstOfPeriod
  cases hf : o.frequency with
  | yearly =>
    simp only [hf] at hb hat ⊢
    refine LunarDay.le_trans ?_ (span_of_year hm hb1 hb).1
    unfold yearAt at hat ⊢
    rw [LunarDay.le_def, LunarDay.lt_def]
    dsimp only
    omega
  | monthly =>
    simp only [hf] at hb hat ⊢
    refine LunarDay.le_trans ?_ (span_of_month hb1 hb).1
    have hcm := hc.1
    unfold monthIndex at hat
    unfold monthAt at hat ⊢
    rw [LunarDay.le_def, LunarDay.lt_def]
    dsimp only
    omega
  | weekly =>
    simp only [hf] at hb hat ⊢
    obtain ⟨i, hi0, -, hb⟩ := hb
    unfold numberAt at hat hb
    exact (hhost.le_iff_of_hasOn hon hb).2 (by omega)
  | daily | hourly | minutely | secondly =>
    simp only [hf] at hb hat ⊢
    unfold numberAt at hat hb
    exact (hhost.le_iff_of_hasOn hon hb).2 (by omega)

omit hk in
/-- **What different periods propose stands in the order of the periods.** -/
theorem le_of_liesAt (ho : o.Normalized ctx answers) (hjk : j < k) (ham : 1 ≤ a.month)
    (had : 1 ≤ a.day) (ha : o.LiesAt host t j a) (hbm : 1 ≤ b.month) (hbd : 1 ≤ b.day)
    (hb : o.LiesAt host t k b) : a ≤ b := by
  have hstep := ho.step_add_le hjk
  have hi := ho.interval
  unfold LiesAt at ha hb
  cases hf : o.frequency with
  | yearly =>
    simp only [hf] at ha hb
    refine LunarDay.le_trans (span_of_year ham had ha).2
      (LunarDay.le_trans ?_ (span_of_year hbm hbd hb).1)
    unfold yearAt
    rw [LunarDay.le_def, LunarDay.lt_def]
    dsimp only
    omega
  | monthly =>
    simp only [hf] at ha hb
    refine LunarDay.le_trans (span_of_month had ha).2
      (LunarDay.le_trans (firstOfNextMonth_le ?_) (span_of_month hbd hb).1)
    unfold monthAt
    omega
  | weekly =>
    simp only [hf] at ha hb
    obtain ⟨i, -, hi', ha⟩ := ha
    obtain ⟨i', hi0, -, hb⟩ := hb
    unfold numberAt daysTo at ha hb
    simp only [hf] at ha hb
    exact (hhost.le_iff_of_hasOn ha hb).2 (by omega)
  | daily | hourly | minutely | secondly =>
    simp only [hf] at ha hb
    unfold numberAt daysTo at ha hb
    simp only [hf] at ha hb
    exact (hhost.le_iff_of_hasOn ha hb).2 (by omega)

omit hhost hk in
/-- A period that starts after a day has its first day after it. -/
theorem lt_firstOfPeriod (hd : t.IsDay d) (h : o.StartsAfter t d k) (hc : t.IsDay c)
    (hat : o.IsAt t k c) : d < o.firstOfPeriod c := by
  have hdm := hd.1
  have hcm := hc.1
  unfold StartsAfter at h
  unfold IsAt at hat
  unfold firstOfPeriod
  cases hf : o.frequency with
  | yearly =>
    simp only [hf] at h hat ⊢
    rw [LunarDay.lt_def]
    dsimp only
    omega
  | monthly =>
    simp only [hf] at h hat ⊢
    unfold monthIndex at h hat
    rw [LunarDay.lt_def]
    dsimp only
    omega
  | weekly | daily | hourly | minutely | secondly =>
    simp only [hf] at h hat ⊢
    exact (numberOf_lt_iff hd hc).1 (by omega)

end Order

/-! ### Known periods -/

/-- **A period that the table has is worked out:** it starts in its place, and it comes to days that
the table reaches. -/
theorem exists_period (ho : o.Normalized ctx answers)
    (hserve : (ctx.serve o.variant).outcome answers = .ok cal) (hk : cal.Keeps answers t)
    (hstart : t.IsDay o.start.toLunarDay) (h : o.HasPeriod t k) :
    ∃ (c : LunarDate) (days : List LunarDay), (o.cursor ctx k).outcome answers = .ok c ∧
      (o.periodDays ctx cal c).outcome answers = .ok (days.map .ofDay) ∧
      (t.IsDay c.toLunarDay ∧ o.IsAt t k c.toLunarDay) ∧
      days.Pairwise (· < ·) ∧ ∀ d ∈ days, t.Reaches d := by
  obtain ⟨c, hcursor, hbuilt, hv, hc, hat⟩ :=
    exists_cursor ho hserve hk hstart (h.hasCursor hstart)
  obtain ⟨days, hdays, hincreasing, hreaches⟩ :=
    exists_periodDays ho hserve hk hbuilt hv hc (h.hasRoom hat)
  exact ⟨c, days, hcursor, hdays, ⟨hc, hat⟩, hincreasing, hreaches⟩

/-- **Periods that the table has are known,** when the last date is in the table. -/
theorem exists_knownPeriods (ho : o.Normalized ctx answers)
    (hserve : (ctx.serve o.variant).outcome answers = .ok (Observed.calendar host))
    (hkeeps : (Observed.calendar host).Keeps answers t) (hk : host.Keeps t)
    (hhost : host.IsOrdered) (hstart : t.IsDay o.start.toLunarDay) {last : LunarDate}
    (hlast : o.last = some last) (hlastDay : t.IsDay last.toLunarDay) {known : Int}
    (hperiods : ∀ k, 0 ≤ k → k < known → o.HasPeriod t k) :
    ∃ first proposed,
      o.KnownPeriods ctx answers (Observed.calendar host) known first proposed := by
  have hall : ∀ k : Int, ∃ (c : LunarDate) (days : List LunarDay), 0 ≤ k → k < known →
      (o.cursor ctx k).outcome answers = .ok c ∧
      (o.periodDays ctx (Observed.calendar host) c).outcome answers = .ok (days.map .ofDay) ∧
      (t.IsDay c.toLunarDay ∧ o.IsAt t k c.toLunarDay) ∧
      days.Pairwise (· < ·) ∧ ∀ d ∈ days, t.Reaches d := by
    intro k
    by_cases hrange : 0 ≤ k ∧ k < known
    · obtain ⟨c, days, h⟩ := exists_period ho hserve hkeeps hstart (hperiods k hrange.1 hrange.2)
      exact ⟨c, days, fun _ _ => h⟩
    · exact ⟨o.start, [], fun hk0 hlt => absurd ⟨hk0, hlt⟩ hrange⟩
  choose c proposed hperiod using hall
  have hproposes : ∀ k, 0 ≤ k → k < known → ∀ d ∈ proposed k,
      t.Reaches d ∧ o.LiesAt host t k d := by
    intro k hk0 hlt d hd
    obtain ⟨hcursor, hdays, -, -, hreaches⟩ := hperiod k hk0 hlt
    exact ⟨hreaches d hd, liesAt_of_proposesIn ho hserve hhost (hk.hasOn hstart) hk0
      ⟨c k, _, hcursor, hdays, List.mem_map_of_mem hd⟩⟩
  have hserve' := ho.start_variant.symm ▸ hserve
  refine ⟨fun k => o.firstOfPeriod (c k).toLunarDay, proposed, ?_, ?_, ?_, ?_, ?_⟩
  · intro k hk0 hlt
    obtain ⟨hcursor, hdays, -⟩ := hperiod k hk0 hlt
    exact ⟨c k, hcursor, periodStart_eq o (c k), hdays⟩
  · intro k hk0 hlt
    exact (hperiod k hk0 hlt).2.2.2.1
  · intro k hk0 hlt d hd hwithin
    have hday := (hproposes k hk0 hlt d hd).1.isDay hlastDay (isWithin_iff.1 hwithin last hlast)
    have hbuilt := ho.start.onDay_of_isDay hserve' hkeeps hday
    rw [LunarDate.onDay, ho.start_variant] at hbuilt
    exact hbuilt
  · intro j k hj hjk hlt a ha b hb
    obtain ⟨hra, hla⟩ := hproposes j hj (by omega) a ha
    obtain ⟨hrb, hlb⟩ := hproposes k (by omega) hlt b hb
    exact le_of_liesAt hhost ho hjk hra.month_pos hra.day_pos hla hrb.month_pos hrb.day_pos hlb
  · intro j k hj hjk hlt d hd
    obtain ⟨hr, hl⟩ := hproposes k (by omega) hlt d hd
    obtain ⟨-, -, ⟨hc, hat⟩, -⟩ := hperiod j hj (by omega)
    exact firstOfPeriod_le_of_liesAt hhost hk ho hc hat hjk hr.month_pos hr.day_pos hl

end HijriRecurrence.RuleOptions
