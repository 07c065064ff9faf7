import HijriRecurrence.Proofs.Rule.LastDate
import HijriRecurrence.Proofs.Rule.MovedDays

/-!
# Rules with a count and the limit on periods

A rule with a count walks a hundred periods for every occurrence asked for, and a thousand at least.
So it yields as many occurrences as it is asked for, unless those periods propose fewer days
(`yields_count`).

For rules of years the limit takes nothing away.  A year that proposes a day is followed by others
like it, often enough for every count (`le_length_of_yearly`).  The same goes for rules of less than
a day, whose periods all propose a day or none does.  Rules of months, weeks and days can do without
one for longer than the limit: `fullLastMonths` asks for ten days that come up without end, and
yields six (`items_fullLastMonths`).
-/

namespace HijriRecurrence.RuleOptions

open Tabular

variable {ctx : Context} {answers : Answers} {o : RuleOptions} {days : List LunarDay} {n : Nat}

/-- Periods that propose different days declare as many days at least. -/
theorem card_le_length {limit : Nat} (h : o.Declared o.daysAt 0 limit none days) (hlast : o.last = none)
    (periods : Finset Nat) (day : Nat → LunarDay) (hinj : Set.InjOn day periods)
    (hday : ∀ k ∈ periods, k < limit ∧ day k ∈ o.daysOfPeriod (o.cursorDay k) ∧
      o.start.toLunarDay ≤ day k) : periods.card ≤ days.length := by
  have hsub : periods.image day ⊆ days.toFinset := by
    intro d hd
    obtain ⟨k, hk, rfl⟩ := Finset.mem_image.1 hd
    obtain ⟨hlimit, hmem, hstart⟩ := hday k hk
    refine List.mem_toFinset.2 ((h.mem_iff _).2 ⟨⟨k, by omega, by omega, hmem⟩, ?_, ?_⟩)
    · rw [isWithin, hlast]
      rfl
    · exact isNew_none_iff.2 hstart
  calc periods.card = (periods.image day).card := (Finset.card_image_of_injOn hinj).symm
    _ ≤ days.toFinset.card := Finset.card_le_card hsub
    _ ≤ days.length := List.toFinset_card_le days

/-! ### Rules of years -/

/-- In a year like another the cursor of a yearly rule is moved along. -/
theorem cursorDay_moved (hf : o.frequency = .yearly) {given period : Int}
    (h : Alike (o.start.year + given * o.interval) (o.start.year + period * o.interval)) :
    o.cursorDay period = (o.cursorDay given).moved ((period - given) * o.interval) := by
  have hyear : o.start.year + period * o.interval =
      o.start.year + given * o.interval + (period - given) * o.interval := by ring
  unfold cursorDay
  rw [hyear] at h ⊢
  rw [hf]
  exact clamp_moved h _ _

/-- **A yearly rule that proposes a day at all proposes enough of them within the limit.** -/
theorem le_length_of_yearly (ho : o.Normalized ctx answers) (hv : o.variant = .tabular)
    (hf : o.frequency = .yearly) (hcount : o.count = some (n : Int)) (hlast : o.last = none)
    {given : Nat} {d : LunarDay} (hd : d ∈ o.daysOfPeriod (o.cursorDay given))
    (h : o.Declared o.daysAt 0 o.periodLimit.toNat none days) : n ≤ days.length := by
  have hi := ho.interval
  obtain ⟨limit, hlimit⟩ : ∃ limit, o.periodLimit.toNat = limit := ⟨_, rfl⟩
  have hbound : limit = max (n * 100) 1000 := by
    rw [← hlimit, periodLimit, hcount]
    dsimp only
    omega
  have hmany : n ≤ 3 * ((limit - 1) / 210) := by omega
  -- the first period may start before the first date
  refine hmany.trans ((three_mul_le_card_alike o.start.year o.interval given 1 _).trans ?_)
  rw [hlimit] at h
  refine card_le_length h hlast _ (fun k => d.moved ((k - given) * o.interval)) ?_ ?_
  · intro k _ j _ heq
    have hyear : d.year + (k - given) * o.interval = d.year + (j - given) * o.interval :=
      congrArg LunarDay.year heq
    have hsame := Int.eq_of_mul_eq_mul_right (by omega) (Int.add_left_cancel hyear)
    omega
  · intro k hk
    obtain ⟨hk, halike⟩ := Finset.mem_filter.1 hk
    have hk := Finset.mem_Ico.1 hk
    have hyear : o.start.year + k * o.interval =
        o.start.year + given * o.interval + (k - given) * o.interval := by ring
    have hmem : d.moved ((k - given) * o.interval) ∈ o.daysOfPeriod (o.cursorDay k) := by
      rw [cursorDay_moved hf halike,
        daysOfPeriod_moved _ ho (isDay_cursorDay ho hv (Int.natCast_nonneg given)) (Or.inl hf)]
      · exact List.mem_map_of_mem hd
      · rw [cursorDay, hf]
        rwa [hyear] at halike
    refine ⟨by omega, hmem, ?_⟩
    have hstep := ho.step_add_le (show (0 : Int) < k by omega)
    have hday := isDay_cursorDay ho hv (Int.natCast_nonneg k)
    have hfirst := (span_of_mem_proposedDays ho hday (mem_proposedDays_of_mem hmem)).2.1
    refine LunarDay.le_trans (LunarDay.le_of_lt ?_) hfirst
    rw [firstOfPeriod, cursorDay, hf, LunarDay.lt_def]
    dsimp only [clamp]
    omega

/-! ### Rules of less than a day -/

/-- A rule steps by less than a day: each of its periods proposes the day of the cursor. -/
def StepsWithinDays (o : RuleOptions) : Prop :=
  o.frequency = .hourly ∨ o.frequency = .minutely ∨ o.frequency = .secondly

/-- A rule keeps the only day of a period: it is at its first position, and at its last. -/
def KeepsOnlyDay (o : RuleOptions) : Prop := o.positions = [] ∨ 1 ∈ o.positions ∨ -1 ∈ o.positions

theorem proposedDays_of_steps (hf : o.StepsWithinDays) (c : LunarDay) : o.proposedDays c = [c] := by
  unfold proposedDays
  rcases hf with hf | hf | hf <;> rw [hf]

theorem mem_pickDays_singleton {c d : LunarDay} {positions : List Int} :
    d ∈ pickDays [c] positions ↔ d = c ∧ (1 ∈ positions ∨ -1 ∈ positions) := by
  have hpick (position : Int) :
      (let index : Int := if 0 < position then position - 1 else ([c].length : Int) + position
        if 0 ≤ index then [c][index.toNat]? else none) = some d ↔
      d = c ∧ (position = 1 ∨ position = -1) := by
    rw [List.length_singleton]
    dsimp only
    obtain ⟨index, hindex⟩ : ∃ index : Int,
      (if 0 < position then position - 1 else ((1 : Nat) : Int) + position) = index := ⟨_, rfl⟩
    have honly : index = 0 ↔ position = 1 ∨ position = -1 := by
      split at hindex <;> omega
    rw [hindex, ← honly, List.getElem?_singleton]
    constructor
    · intro h
      split at h
      · split at h
        · exact ⟨(Option.some.inj h).symm, by omega⟩
        · exact absurd h (by simp)
      · exact absurd h (by simp)
    · rintro ⟨rfl, rfl⟩
      rfl
  rw [pickDays, LunarDay.mem_sorted, List.mem_filterMap]
  simp only [hpick]
  constructor
  · rintro ⟨position, hmem, hd, rfl | rfl⟩
    · exact ⟨hd, Or.inl hmem⟩
    · exact ⟨hd, Or.inr hmem⟩
  · rintro ⟨hd, hmem | hmem⟩
    · exact ⟨1, hmem, hd, Or.inl rfl⟩
    · exact ⟨-1, hmem, hd, Or.inr rfl⟩

/-- A period of a rule that steps by less than a day proposes its day, if it proposes any. -/
theorem mem_daysOfPeriod_of_steps (hf : o.StepsWithinDays) {c d : LunarDay} :
    d ∈ o.daysOfPeriod c ↔ d = c ∧ o.KeepsOnlyDay := by
  have honly := proposedDays_of_steps hf c
  by_cases hpos : o.positions = []
  · have hkeeps : o.KeepsOnlyDay := Or.inl hpos
    rw [mem_daysOfPeriod hpos, honly, List.mem_singleton, and_iff_left hkeeps]
  · have hgiven : ¬o.positions.isEmpty = true := by simpa using hpos
    rw [daysOfPeriod, if_neg hgiven, honly]
    show d ∈ pickDays [c] o.positions ↔ _
    rw [mem_pickDays_singleton, KeepsOnlyDay, or_iff_right hpos]

/-- Whatever a cursor is, no more is proposed in its period than its day. -/
theorem keepsOnlyDay_of_proposes (hf : o.StepsWithinDays) {period : Int} {d : LunarDay}
    (h : o.Proposes ctx answers period d) : o.KeepsOnlyDay := by
  obtain ⟨found, hfound, hd⟩ := h
  obtain ⟨cursor, -, hdays⟩ := Calculation.outcome_bind_eq_ok.1 hfound
  have honly : o.periodDays ctx Tabular.calendar cursor =
      pure ((o.daysOfPeriod cursor.toLunarDay).map .ofDay) := by
    have hcandidates : o.candidates ctx Tabular.calendar cursor =
        pure (([cursor.toLunarDay] : List LunarDay).map .ofDay) := by
      unfold candidates
      rcases hf with hf | hf | hf <;> rw [hf] <;> rfl
    rw [periodDays, hcandidates, pure_bind, daysOfPeriod, proposedDays_of_steps hf,
      pickPositions_ofDay]
    split <;> rfl
  rw [honly] at hdays
  rw [← Except.ok.inj hdays] at hd
  obtain ⟨e, he, -⟩ := List.mem_map.1 hd
  exact ((mem_daysOfPeriod_of_steps hf).1 he).2

/-- **A rule of less than a day that proposes a day at all proposes one in every period.** -/
theorem le_length_of_steps (ho : o.Normalized ctx answers) (hv : o.variant = .tabular)
    (hf : o.StepsWithinDays) (hcount : o.count = some (n : Int)) (hlast : o.last = none)
    (hkeeps : o.KeepsOnlyDay) (h : o.Declared o.daysAt 0 o.periodLimit.toNat none days) :
    n ≤ days.length := by
  have hlimit : n ≤ o.periodLimit.toNat := by
    rw [periodLimit, hcount]
    dsimp only
    omega
  have hnum (k : Nat) : Tabular.dayNumberOf (o.cursorDay k) =
      Tabular.dayNumberOf o.start.toLunarDay + k := by
    have hk := Int.natCast_nonneg k
    rcases hf with hf | hf | hf <;>
      simpa only [daysTo, hf] using
        dayNumberOf_cursorDay ho hv hk (by simp [hf]) (by simp [hf])
  have hcard := card_le_length h hlast (Finset.range n) (fun k => o.cursorDay k) ?_ ?_
  · rwa [Finset.card_range] at hcard
  · intro k _ j _ heq
    have hsame : Tabular.dayNumberOf (o.cursorDay k) = Tabular.dayNumberOf (o.cursorDay j) :=
      congrArg Tabular.dayNumberOf heq
    rw [hnum, hnum] at hsame
    omega
  · intro k hk
    have hk := Finset.mem_range.1 hk
    refine ⟨by omega, (mem_daysOfPeriod_of_steps hf).2 ⟨rfl, hkeeps⟩, ?_⟩
    refine (dayNumberOf_le_iff (ho.isDay_start hv)
      (isDay_cursorDay ho hv (Int.natCast_nonneg k))).1 ?_
    rw [hnum]
    omega

/-! ### Rules with a count -/

/-- **A rule with a count yields as many occurrences, unless the periods within its limit propose
fewer days.**  A rule of years, or of less than a day, yields them whenever a period of it proposes
a day at all. -/
theorem yields_count (ho : o.Normalized ctx answers) (hv : o.variant = .tabular)
    (hx : o.CountsDaysExactly ctx answers) (hcount : o.count = some (n : Int))
    (hlast : o.last = none) :
    o.periodLimit = max ((n : Int) * 100) 1000 ∧
    ∃ days dates, o.Enumerates ctx answers days ∧ (o.occurrences ctx).Yields answers dates ∧
      dates = (days.take n).map o.occurrenceOn ∧ dates.length = min n days.length ∧
      (o.frequency = .yearly ∨ o.StepsWithinDays →
        (∃ period d, 0 ≤ period ∧ o.Proposes ctx answers period d) → dates.length = n) := by
  refine ⟨by rw [periodLimit, hcount], ?_⟩
  obtain ⟨days, hdeclared, hyields⟩ := occurrences_yield ho hv hx
  rw [cutToCount, hcount] at hyields
  have hlength : ((days.take n).map o.occurrenceOn).length = min n days.length := by
    rw [List.length_map, List.length_take]
  refine ⟨days, _, hdeclared.enumerates ho hv hx, hyields, rfl, hlength, ?_⟩
  rintro hf ⟨period, d, hk, hd⟩
  have hle : n ≤ days.length := by
    rcases hf with hf | hf
    · obtain ⟨given, rfl⟩ := Int.eq_ofNat_of_zero_le hk
      rw [proposes_iff_of_months ho hv (Or.inl hf) hk] at hd
      exact le_length_of_yearly ho hv hf hcount hlast hd hdeclared
    · exact le_length_of_steps ho hv hf hcount hlast (keepsOnlyDay_of_proposes hf hd) hdeclared
  exact hlength.trans (Nat.min_eq_left hle)

/-- The later of the fifth Friday and the fifth Saturday of the last month, where it has both, ten
times.  It takes a month of thirty days that begins on a Friday. -/
def fullLastMonths : RuleOptions where
  frequency := .monthly
  start := { year := 1446, month := 1, day := 1, variant := .tabular }
  count := some 10
  positions := [2]
  months := [12]
  nthWeekdays := [⟨4, some 5⟩, ⟨5, some 5⟩]
  variant := .tabular

theorem normalized_fullLastMonths : fullLastMonths.Normalized .hostless .unknown :=
  normalized_of_inBounds (by decide)

/-- Asked for by the year, all ten come. -/
theorem yields_count_fullLastMonths :
    (fullLastMonths.every .yearly).Normalized .hostless .unknown ∧
    (fullLastMonths.every .yearly).CountsDaysExactly .hostless .unknown ∧
    (fullLastMonths.every .yearly).Proposes .hostless .unknown 10 ⟨1456, 12, 30⟩ ∧
    ∃ dates, ((fullLastMonths.every .yearly).occurrences .hostless).Yields .unknown dates ∧
      dates.length = 10 := by
  have ho := normalized_every normalized_fullLastMonths .yearly
  have hx : (fullLastMonths.every .yearly).CountsDaysExactly .hostless .unknown :=
    countsDaysExactly_of_months ho rfl (Or.inl rfl)
  have hd : (fullLastMonths.every .yearly).Proposes .hostless .unknown 10 ⟨1456, 12, 30⟩ :=
    (proposes_iff ho rfl hx (by decide) (by decide)).2 (by decide)
  obtain ⟨-, days, dates, -, hyields, -, -, hall⟩ := yields_count (n := 10) ho rfl hx rfl rfl
  exact ⟨ho, hx, hd, dates, hyields, hall (Or.inl rfl) ⟨10, _, by decide, hd⟩⟩

/-! ### A rule of months that the limit cuts short -/

theorem cursorDay_fullLastMonths (period : Int) :
    fullLastMonths.cursorDay period =
      clamp ((17340 + period) / 12 + 1) ((17340 + period) % 12 + 1) 1 := by
  have hcursor : fullLastMonths.cursorDay period =
      clamp ((17340 + period * 1) / 12 + 1) ((17340 + period * 1) % 12 + 1) 1 := rfl
  rw [hcursor, Int.mul_one]

/-- The last month of 1456 is a full one, and so is every 210 years that of a year like it. -/
theorem proposes_fullLastMonths (rounds : Nat) :
    fullLastMonths.Proposes .hostless .unknown (131 + 2520 * rounds)
      ⟨1456 + 210 * rounds, 12, 30⟩ := by
  have halike : Alike 1456 (1456 + 210 * rounds) := (alike_add_seven_cycles _).2 ⟨rfl, rfl⟩
  have hcursor : fullLastMonths.cursorDay (131 + 2520 * rounds) =
      (fullLastMonths.cursorDay 131).moved (210 * rounds) := by
    have hyear : (17340 + (131 + 2520 * rounds)) / 12 + 1 = 1456 + 210 * (rounds : Int) := by omega
    have hmonth : (17340 + (131 + 2520 * (rounds : Int))) % 12 + 1 = 12 := by omega
    rw [cursorDay_fullLastMonths, hyear, hmonth, clamp_moved halike]
    rfl
  rw [proposes_iff_of_months normalized_fullLastMonths rfl (Or.inr rfl) (by omega), hcursor,
    daysOfPeriod_moved halike normalized_fullLastMonths (by decide) (Or.inr rfl)]
  exact List.mem_map_of_mem (f := LunarDay.moved (210 * rounds)) (a := ⟨1456, 12, 30⟩) (by decide)

/-- A period proposes a day only where it is the last month of a year. -/
theorem month_of_mem_fullLastMonths {period : Int} {d : LunarDay}
    (hd : d ∈ fullLastMonths.daysOfPeriod (fullLastMonths.cursorDay period)) :
    period % 12 = 11 := by
  have hallows : fullLastMonths.allowsMonth (fullLastMonths.cursorDay period).month = true := by
    by_contra hnot
    have hmem := mem_proposedDays_of_mem hd
    rw [proposedDays] at hmem
    change d ∈ (if fullLastMonths.allowsMonth _ then _ else []) at hmem
    rw [if_neg hnot] at hmem
    exact List.not_mem_nil hmem
  rw [cursorDay_fullLastMonths] at hallows
  have hlast : (17340 + period) % 12 + 1 = 12 := by
    simpa [allowsMonth, fullLastMonths, clamp] using hallows
  omega

/-- The last days of the full last months among the first thousand months. -/
def fullLastDays : List LunarDay :=
  [⟨1456, 12, 30⟩, ⟨1464, 12, 30⟩, ⟨1472, 12, 30⟩, ⟨1480, 12, 30⟩, ⟨1488, 12, 30⟩, ⟨1496, 12, 30⟩]

theorem flatMap_daysOfPeriod_fullLastMonths :
    ((List.range 83).flatMap fun (years : Nat) =>
      fullLastMonths.daysOfPeriod (fullLastMonths.cursorDay (12 * years + 11))) =
      fullLastDays := by
  decide +kernel

theorem declared_fullLastMonths {days : List LunarDay}
    (h : fullLastMonths.Declared fullLastMonths.daysAt 0 1000 none days) : days = fullLastDays := by
  refine LunarDay.eq_of_mem_iff h.increasing (by decide) fun d => ?_
  have hstart : ∀ d ∈ fullLastDays, fullLastMonths.start.toLunarDay ≤ d := by decide
  rw [h.mem_iff]
  constructor
  · rintro ⟨⟨period, hk, hlimit, hd⟩, -⟩
    have hlast := month_of_mem_fullLastMonths hd
    rw [← flatMap_daysOfPeriod_fullLastMonths, List.mem_flatMap]
    refine ⟨(period / 12).toNat, List.mem_range.2 (by omega), ?_⟩
    rwa [show 12 * ((period / 12).toNat : Int) + 11 = period by omega]
  · intro hd
    refine ⟨?_, rfl, isNew_none_iff.2 (hstart d hd)⟩
    rw [← flatMap_daysOfPeriod_fullLastMonths, List.mem_flatMap] at hd
    obtain ⟨years, hyears, hd⟩ := hd
    have hyears := List.mem_range.1 hyears
    exact ⟨12 * years + 11, by omega, by omega, hd⟩

/-- **The limit can end a walk that would have more to come.**  Of the ten days asked for, which
come up without end, six are yielded. -/
theorem items_fullLastMonths :
    fullLastMonths.Normalized .hostless .unknown ∧ fullLastMonths.variant = .tabular ∧
    fullLastMonths.count = some 10 ∧ fullLastMonths.last = none ∧
    (∀ bound : Int, ∃ period, bound ≤ period ∧
      ∃ d, fullLastMonths.Proposes .hostless .unknown period d) ∧
    ((fullLastMonths.occurrences .hostless).items .unknown).map (·.toLunarDay) = fullLastDays ∧
    fullLastDays.length = 6 := by
  have ho := normalized_fullLastMonths
  refine ⟨ho, rfl, rfl, rfl, fun bound => ?_, ?_, rfl⟩
  · exact ⟨131 + 2520 * bound.toNat, by omega, _, proposes_fullLastMonths bound.toNat⟩
  · obtain ⟨days, hdeclared, hyields⟩ := occurrences_yield ho rfl
      (countsDaysExactly_of_months ho rfl (Or.inr rfl))
    rw [declared_fullLastMonths hdeclared] at hyields
    rw [hyields.items]
    rfl

end HijriRecurrence.RuleOptions
