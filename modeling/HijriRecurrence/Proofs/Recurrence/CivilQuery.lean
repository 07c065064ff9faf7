import HijriRecurrence.Proofs.Calendar.CivilOrder
import HijriRecurrence.Proofs.Calendar.KeptDates
import HijriRecurrence.Proofs.Recurrence.OneCalendar
import HijriRecurrence.Proofs.Recurrence.Query

/-!
# Queries by civil dates

A query by civil dates turns its bounds into lunar days, compares these with the occurrences, and
turns what it finds back.  In one calendar nothing is lost on the way, since both conversions are in
order: the query finds what the civil dates of the occurrences say (`civilQueries_find`).

A rule reads the bounds in its own calendar.  A set reads them in the default calendar, whatever
calendar its rules and dates are in, so that it needs the two to be served alike
(`Recurrence.ReadsIn`).  Otherwise the bounds are off by a day or two
(`afterCivil_ne_find_firstOfYear`).
-/

namespace HijriRecurrence

open LunarDate Occurrences

variable {ctx : Context} {answers : Answers} {r : Recurrence} {variant : Variant}

/-! ### Occurrences and their civil dates -/

/-- A walk along calculated images has passed along what they are the images of. -/
theorem Occurrences.exists_yields_of_mapM {α β : Type} {f : α → Calculation β}
    {walk : Occurrences α} {images : List β} (h : Yields answers (walk.mapM f) images) :
    ∃ list, Yields answers walk list ∧
      List.Forall₂ (fun a b => (f a).outcome answers = .ok b) list images := by
  induction walk generalizing images with
  | done =>
    obtain rfl := yields_done_iff.1 h
    exact ⟨[], yields_done, .nil⟩
  | failed e => exact absurd h (not_yields_failed e)
  | item head rest ih =>
    obtain ⟨image, himage, hafter⟩ := yields_after_iff.1 h
    obtain ⟨others, rfl, hothers⟩ := yields_item_iff.1 hafter
    obtain ⟨list, hlist, hrest⟩ := ih () hothers
    exact ⟨head :: list, yields_item_iff.2 ⟨list, rfl, hlist⟩, .cons himage hrest⟩
  | ask inquiry next ih =>
    obtain ⟨list, hlist, hrest⟩ := ih (answers inquiry) (yields_ask_iff.1 h)
    exact ⟨list, yields_ask_iff.2 hlist, hrest⟩

namespace LunarDate

/-- A date has a civil date. -/
def IsOn (ctx : Context) (answers : Answers) (d : LunarDate) (g : CivilDate) : Prop :=
  (d.toCivil ctx).outcome answers = .ok g

end LunarDate

namespace Recurrence

theorem outcome_civilDates {dates : List LunarDate} {civil : List CivilDate}
    (h : List.Forall₂ (IsOn ctx answers) dates civil) :
    (civilDates ctx dates).outcome answers = .ok civil := by
  induction h with
  | nil => rfl
  | cons hd _ ih =>
    rw [civilDates, Calculation.outcome_bind_ok hd, Calculation.outcome_bind_ok ih]
    rfl

/-- What stands first stands first as a civil date. -/
theorem outcome_civilOption_head? {dates : List LunarDate} {civil : List CivilDate}
    (h : List.Forall₂ (IsOn ctx answers) dates civil) :
    (civilOption ctx (.found dates.head?)).outcome answers = .ok civil.head? := by
  cases h with
  | nil => rfl
  | cons hd _ =>
    rw [List.head?_cons, civilOption, ← bind_pure_comp, Calculation.outcome_bind_ok hd]
    rfl

/-- What stands last stands last as a civil date. -/
theorem outcome_civilOption_getLast? {dates : List LunarDate} {civil : List CivilDate}
    (h : List.Forall₂ (IsOn ctx answers) dates civil) :
    (civilOption ctx (.found dates.getLast?)).outcome answers = .ok civil.getLast? := by
  rw [List.getLast?_eq_head?_reverse, List.getLast?_eq_head?_reverse]
  exact outcome_civilOption_head? (List.forall₂_reverse_iff.2 h)

/-! ### Bounds -/

/-- A set reads its bounds in the default calendar, which has to be served as another one is.  A
rule reads them in its own. -/
def ReadsIn (ctx : Context) (variant : Variant) : Recurrence → Prop
  | rule _ => True
  | set _ => ctx.resolve ctx.defaultVariant = ctx.resolve variant

end Recurrence

theorem Context.serve_congr {other : Variant} (h : ctx.resolve other = ctx.resolve variant) :
    ctx.serve other = ctx.serve variant := by
  unfold Context.serve
  rw [h]

/-- The calendar that serves a variant converts in order, when the host that it may need does. -/
theorem Context.isOrdered_of_serve {cal : Calendar}
    (hhost : ctx.resolve variant = .ummAlQura → ctx.host.IsOrdered)
    (h : (ctx.serve variant).outcome answers = .ok cal) : cal.IsOrdered := by
  unfold Context.serve at h
  split at h
  · obtain rfl := Except.ok.inj h
    exact Tabular.isOrdered
  · obtain rfl := Except.ok.inj h
    exact Observed.isOrdered (hhost (by assumption))

namespace LunarDate

variable {g : CivilDate} {a d : LunarDate}

/-- A built date stays built in a calendar that is served alike. -/
theorem Built.inVariant (h : d.Built ctx answers) (hserve : ctx.serve variant = ctx.serve d.variant) :
    Built ctx answers { d with variant } := by
  obtain ⟨hrange, hday⟩ := built_iff.1 h
  refine built_iff.2 ⟨⟨hrange.year, hrange.month, hrange.day, hrange.hour, hrange.minute,
    hrange.second⟩, ?_⟩
  obtain ⟨cal, hcal, hday⟩ := Calculation.outcome_bind_eq_ok.1 hday
  obtain ⟨length, hlength, hday⟩ := Calculation.outcome_bind_eq_ok.1 hday
  obtain ⟨fits, hfits, hday⟩ := Calculation.outcome_bind_eq_ok.1 hday
  have hcal' : (ctx.serve variant).outcome answers = .ok cal := hserve ▸ hcal
  rw [checkDay, calendar, Calculation.outcome_bind_ok hcal', Calculation.outcome_bind_ok hlength,
    Calculation.outcome_bind_ok hfits]
  cases fits with
  | true => rfl
  | false => cases hday

/-- The date of a civil date is on the day that the calendar has for it. -/
theorem outcome_ofCivil_eq_ok {name : Option CalendarName} {cal : Calendar}
    (hname : ctx.variantOf name = .ok variant)
    (hserve : (ctx.serve variant).outcome answers = .ok cal) :
    (ofCivil ctx g name).outcome answers = .ok a ↔
      ∃ day, cal.ofCivil g = .ok day ∧ a = { day with variant } ∧ a.Built ctx answers := by
  unfold ofCivil
  rw [Calculation.outcome_bind_ok ((Calculation.outcome_liftM _).trans hname),
    Calculation.outcome_bind_ok hserve, Calculation.outcome_bind_eq_ok]
  refine exists_congr fun day => ?_
  rw [Calculation.outcome_liftM, build_eq_ok]
  refine and_congr_right fun _ => ⟨?_, ?_⟩
  · rintro ⟨rfl, hbuilt⟩
    exact ⟨rfl, hbuilt⟩
  · rintro ⟨rfl, hbuilt⟩
    exact ⟨rfl, hbuilt⟩

end LunarDate

namespace Recurrence

variable {g h : CivilDate} {a b : LunarDate} {cal : Calendar}

/-- The bound of a query by a civil date is on the day of this date. -/
theorem exists_readDate (hin : r.IsIn variant) (hreads : r.ReadsIn ctx variant)
    (hserve : (ctx.serve variant).outcome answers = .ok cal)
    (ha : (ofCivil ctx g (some (.known variant))).outcome answers = .ok a) :
    ∃ bound, (r.readDate ctx (.civil g)).outcome answers = .ok bound ∧
      cal.ofCivil g = .ok bound.toLunarDay := by
  obtain ⟨day, hday, rfl, hbuilt⟩ := (outcome_ofCivil_eq_ok rfl hserve).1 ha
  cases r with
  | rule r =>
    obtain rfl : r.options.variant = variant := hin
    exact ⟨_, ha, hday⟩
  | set s =>
    have hdefault := Context.serve_congr hreads
    have hbound := hbuilt.inVariant hdefault
    refine ⟨{ day with variant := ctx.defaultVariant }, ?_, hday⟩
    exact (outcome_ofCivil_eq_ok rfl (hdefault ▸ hserve)).2 ⟨day, hday, rfl, hbound⟩

/-! ### What the queries find -/

/-- The occurrences of a recurrence in one calendar, each with its civil date. -/
theorem exists_occurrences_of_civil (hin : r.IsIn variant)
    (hserve : (ctx.serve variant).outcome answers = .ok cal) {civil : List CivilDate}
    (hyields : Yields answers (r.civilOccurrences ctx) civil) :
    ∃ dates, Yields answers (r.occurrences ctx) dates ∧
      List.Forall₂ (fun d h => d.IsOn ctx answers h ∧ cal.toCivil d.toLunarDay = .ok h)
        dates civil := by
  obtain ⟨dates, hdates, hcivil⟩ := exists_yields_of_mapM hyields
  refine ⟨dates, hdates, ?_⟩
  have hvariant : ∀ d ∈ dates, d.variant = variant := by
    rw [← hdates.items]
    exact variant_of_isIn hin
  refine List.forall₂_iff_zip.2 ⟨hcivil.length_eq, fun {d h} hmem => ?_⟩
  have hon := List.forall₂_zip hcivil hmem
  refine ⟨hon, ?_⟩
  have hv := hvariant d (List.of_mem_zip hmem).1
  rw [LunarDate.toCivil, calendar, hv, Calculation.outcome_bind_ok hserve,
    Calculation.outcome_liftM] at hon
  exact hon

/-- What is kept of the occurrences is kept of their civil dates. -/
theorem forall₂_filter {P : LunarDate → Prop} {Q : CivilDate → Prop} [DecidablePred P]
    [DecidablePred Q] (hPQ : ∀ d h, cal.toCivil d.toLunarDay = .ok h → (P d ↔ Q h))
    {dates : List LunarDate} {civil : List CivilDate}
    (h : List.Forall₂ (fun d h => d.IsOn ctx answers h ∧ cal.toCivil d.toLunarDay = .ok h)
      dates civil) :
    List.Forall₂ (IsOn ctx answers) (dates.filter fun d => decide (P d))
      (civil.filter fun h => decide (Q h)) := by
  refine List.Forall₂.imp (fun _ _ hon => hon.1) (List.rel_filter ?_ h)
  intro d h hon
  simpa using hPQ d h hon.2

/-- **Queries by civil dates find what the civil dates of the occurrences say.**  In a recurrence
whose rules and dates are all in one calendar, and whose bounds are read in a calendar served alike,
the first occurrence after a civil date, the last one before it, and those between two civil dates
are the ones that the civil dates of the occurrences show. -/
theorem civilQueries_find (harises : r.Arises ctx answers) (hrules : r.hasOnlyDates = true)
    (hin : r.IsIn variant) (hreads : r.ReadsIn ctx variant)
    (hhost : ctx.resolve variant = .ummAlQura → ctx.host.IsOrdered) {civil : List CivilDate}
    (hyields : Yields answers (r.civilOccurrences ctx) civil) (hg : g.Valid) (hh : h.Valid)
    (ha : (ofCivil ctx g (some (.known variant))).outcome answers = .ok a)
    (hb : (ofCivil ctx h (some (.known variant))).outcome answers = .ok b) (inclusive : Bool) :
    (∃ s, (r.afterCivil ctx (.civil g) (.bool inclusive)).outcome answers =
      .ok (.ok (civil.find? fun e => decide (g.IsPast inclusive e)), s)) ∧
    (∃ s, (r.beforeCivil ctx (.civil g) (.bool inclusive)).outcome answers =
      .ok (.ok (civil.filter fun e => decide (e.IsPast inclusive g)).getLast?, s)) ∧
    ∃ s, (r.betweenCivil ctx (.civil g) (.civil h) (.bool inclusive)).outcome answers =
      .ok (.ok (civil.filter fun e => decide (g.IsPast inclusive e ∧ e.IsPast inclusive h)), s) := by
  obtain ⟨cal, hserve⟩ : ∃ cal, (ctx.serve variant).outcome answers = .ok cal := by
    unfold Context.serve
    split <;> exact ⟨_, rfl⟩
  have hcal := Context.isOrdered_of_serve hhost hserve
  obtain ⟨first, hfirst, hfirstDay⟩ := exists_readDate hin hreads hserve ha
  obtain ⟨last, hlast, hlastDay⟩ := exists_readDate hin hreads hserve hb
  obtain ⟨dates, hdates, hcivil⟩ := exists_occurrences_of_civil hin hserve hyields
  have horder := increasing hrules hdates
  refine ⟨?_, ?_, ?_⟩
  · obtain ⟨s, hs⟩ := after_eq_find? harises hdates hfirst (.bool inclusive) rfl
    have hfound := outcome_civilOption_head? (forall₂_filter (fun d e hd =>
      hcal.isPast_iff hg hfirstDay hd inclusive) hcivil)
    rw [List.head?_filter, List.head?_filter] at hfound
    refine ⟨s, ?_⟩
    rw [afterCivil, Calculation.outcome_bind_ok hs,
      Calculation.outcome_bind_ok (Calculation.outcome_attempt _ _)]
    exact congrArg (fun found => Except.ok (found, s)) hfound
  · obtain ⟨s, hs⟩ := before_eq_getLast? harises hdates horder hfirst (.bool inclusive) rfl
    have hfound := outcome_civilOption_getLast? (forall₂_filter (fun d e hd =>
      hcal.isBefore_iff hg hfirstDay hd inclusive) hcivil)
    refine ⟨s, ?_⟩
    rw [beforeCivil, Calculation.outcome_bind_ok hs,
      Calculation.outcome_bind_ok (Calculation.outcome_attempt _ _)]
    exact congrArg (fun found => Except.ok (found, s)) hfound
  · obtain ⟨s, hs⟩ := between_find harises hdates horder hfirst (.bool inclusive) hlast rfl
    have hfound := outcome_civilDates (forall₂_filter (fun d e hd => and_congr
      (hcal.isPast_iff hg hfirstDay hd inclusive)
      (hcal.isBefore_iff hh hlastDay hd inclusive)) hcivil)
    refine ⟨s, ?_⟩
    rw [betweenCivil, Calculation.outcome_bind_ok hs,
      Calculation.outcome_bind_ok (Calculation.outcome_attempt _ _)]
    exact congrArg (fun found => Except.ok (found, s)) hfound

/-- Civil dates are looked up in the Umm al-Qura tables. -/
def withTables : Context where
  host := UmmAlQura.host
  today := ⟨2025, 1, 1⟩

/-- The set with one date, the first day of 1446. -/
def firstOfYear (variant : Variant) : Recurrence :=
  .set ((RuleSet.empty true).addDate { year := 1446, month := 1, day := 1, variant })

theorem arises_firstOfYear (variant : Variant) :
    (firstOfYear variant).Arises withTables (Observed.answers UmmAlQura.host) :=
  ⟨firstOfYear variant, true, [], rfl⟩

theorem resolve_withTables (variant : Variant) : withTables.resolve variant = variant := by
  cases variant with
  | tabular => rfl
  | ummAlQura => decide +kernel

theorem outcome_serve_withTables :
    (withTables.serve .ummAlQura).outcome (Observed.answers UmmAlQura.host) =
      .ok (Observed.calendar UmmAlQura.host) := by
  rw [Context.serve, resolve_withTables]
  rfl

/-- The days of the tables are dates. -/
theorem built_of_isDay_table {day : LunarDay} (h : UmmAlQura.table.IsDay day) :
    Built withTables (Observed.answers UmmAlQura.host) { day with variant := .ummAlQura } :=
  built_of_isDay outcome_serve_withTables (Observed.keeps UmmAlQura.host_keeps)
    ⟨h.year_pos, h.1, ⟨h.2.2.1, h.day_le⟩, ⟨Int.le_refl 0, Int.le.intro 23 rfl⟩,
      ⟨Int.le_refl 0, Int.le.intro 59 rfl⟩, ⟨Int.le_refl 0, Int.le.intro 59 rfl⟩⟩ h

/-- A civil date is built on the day that the tables have for it. -/
theorem outcome_ofCivil_withTables (name : Option CalendarName)
    (hname : withTables.variantOf name = .ok .ummAlQura) {g : CivilDate} {day : LunarDay}
    (hday : UmmAlQura.host g = .ok day) (h : UmmAlQura.table.IsDay day) :
    (ofCivil withTables g name).outcome (Observed.answers UmmAlQura.host) =
      .ok { day with variant := .ummAlQura } :=
  (outcome_ofCivil_eq_ok hname outcome_serve_withTables).2
    ⟨day, Observed.ofCivil_eq_ok.2 hday, rfl, built_of_isDay_table h⟩

/-- A set whose walks start well merges them. -/
theorem occurrences_of_walks {s : RuleSet} {included excluded : List (Occurrences LunarDate)}
    (hincluded : RuleSet.walks ctx s.rules s.dates = .ok included)
    (hexcluded : RuleSet.walks ctx s.exRules s.exDates = .ok excluded) :
    s.occurrences ctx = mergeExcept included excluded := by
  rw [RuleSet.occurrences, hincluded, hexcluded]

theorem occurrences_firstOfYear (variant : Variant) :
    (firstOfYear variant).occurrences withTables =
      .item { year := 1446, month := 1, day := 1, variant } fun _ => .done := by
  have hincluded : RuleSet.walks withTables [] [{ year := 1446, month := 1, day := 1, variant }] =
      .ok [.item { year := 1446, month := 1, day := 1, variant } fun _ => .done] := by
    rw [RuleSet.walks, sortDates, List.mergeSort_singleton]
    rfl
  have hexcluded : RuleSet.walks withTables [] [] = .ok [.done] := by
    rw [RuleSet.walks, sortDates, List.mergeSort_nil]
    rfl
  exact occurrences_of_walks (s := (RuleSet.empty true).addDate
    { year := 1446, month := 1, day := 1, variant }) hincluded hexcluded

theorem isIn_firstOfYear (variant : Variant) : (firstOfYear variant).IsIn variant := by
  refine ⟨fun source hsource => absurd hsource List.not_mem_nil, fun d hd => ?_⟩
  rw [List.mem_singleton.1 hd]

/-- The one occurrence of the set has the civil date of the first day. -/
theorem yields_firstOfYear {g : CivilDate}
    (h : IsOn withTables answers { year := 1446, month := 1, day := 1, variant } g) :
    Yields answers ((firstOfYear variant).civilOccurrences withTables) [g] := by
  rw [civilOccurrences, occurrences_firstOfYear]
  exact Yields.after h ⟨rfl, rfl⟩

theorem civilQueries_find_firstOfYear :
    (firstOfYear .ummAlQura).Arises withTables (Observed.answers UmmAlQura.host) ∧
      withTables.resolve .ummAlQura = .ummAlQura ∧ UmmAlQura.host.IsOrdered ∧
      Yields (Observed.answers UmmAlQura.host)
        ((firstOfYear .ummAlQura).civilOccurrences withTables) [⟨2024, 7, 7⟩] ∧
      (∃ s, ((firstOfYear .ummAlQura).afterCivil withTables (.civil ⟨2024, 7, 7⟩)
        (.bool true)).outcome (Observed.answers UmmAlQura.host) =
          .ok (.ok (some ⟨2024, 7, 7⟩), s)) ∧
      ∃ s, ((firstOfYear .ummAlQura).betweenCivil withTables (.civil ⟨2024, 7, 7⟩)
        (.civil ⟨2024, 7, 8⟩) (.bool false)).outcome (Observed.answers UmmAlQura.host) =
          .ok (.ok [], s) := by
  have hfirst : UmmAlQura.table.IsDay ⟨1446, 1, 1⟩ := by decide +kernel
  have hyields : Yields (Observed.answers UmmAlQura.host)
      ((firstOfYear .ummAlQura).civilOccurrences withTables) [⟨2024, 7, 7⟩] := by
    refine yields_firstOfYear ?_
    have hcivil := Observed.toCivil_of_isDay UmmAlQura.host_keeps hfirst
    rw [show CivilDate.ofDayNumber (UmmAlQura.table.numberOf ⟨1446, 1, 1⟩) = ⟨2024, 7, 7⟩ by
      decide +kernel] at hcivil
    rw [IsOn, LunarDate.toCivil, calendar, Calculation.outcome_bind_ok outcome_serve_withTables]
    exact (Calculation.outcome_liftM _).trans hcivil
  have hhostFirst : UmmAlQura.host ⟨2024, 7, 7⟩ = .ok ⟨1446, 1, 1⟩ := by decide +kernel
  have hg := outcome_ofCivil_withTables (some (.known .ummAlQura)) rfl hhostFirst hfirst
  have hhostSecond : UmmAlQura.host ⟨2024, 7, 8⟩ = .ok ⟨1446, 1, 2⟩ := by decide +kernel
  have hh := outcome_ofCivil_withTables (some (.known .ummAlQura)) rfl hhostSecond
    (by decide +kernel)
  have hfind := civilQueries_find (arises_firstOfYear .ummAlQura) rfl (isIn_firstOfYear .ummAlQura)
    rfl (fun _ => UmmAlQura.host_isOrdered) hyields
    (by decide) (by decide) hg hh
  exact ⟨arises_firstOfYear _, resolve_withTables _, UmmAlQura.host_isOrdered, hyields,
    (hfind true).1, (hfind false).2.2⟩

/-- **A set reads its bounds in the default calendar, even when all its dates are in another one.**
The first day of 1446 by the tabular calendar is 8 July 2024, which the Umm al-Qura tables have on
the second day of 1446; so from that day on the set finds nothing. -/
theorem afterCivil_ne_find_firstOfYear :
    (firstOfYear .tabular).IsIn .tabular ∧
      (∃ a, (ofCivil withTables ⟨2024, 7, 8⟩ (some (.known .tabular))).outcome
        (Observed.answers UmmAlQura.host) = .ok a) ∧
      Yields (Observed.answers UmmAlQura.host)
        ((firstOfYear .tabular).civilOccurrences withTables) [⟨2024, 7, 8⟩] ∧
      [(⟨2024, 7, 8⟩ : CivilDate)].find?
        (fun e => decide (CivilDate.IsPast true ⟨2024, 7, 8⟩ e)) = some ⟨2024, 7, 8⟩ ∧
      ∃ s, ((firstOfYear .tabular).afterCivil withTables (.civil ⟨2024, 7, 8⟩)
        (.bool true)).outcome (Observed.answers UmmAlQura.host) = .ok (.ok none, s) := by
  have hhostSecond : UmmAlQura.host ⟨2024, 7, 8⟩ = .ok ⟨1446, 1, 2⟩ := by decide +kernel
  have hread : ((firstOfYear .tabular).readDate withTables (.civil ⟨2024, 7, 8⟩)).outcome
      (Observed.answers UmmAlQura.host) =
        .ok { year := 1446, month := 1, day := 2, variant := .ummAlQura } :=
    outcome_ofCivil_withTables none rfl hhostSecond (by decide +kernel)
  have hyields : Yields (Observed.answers UmmAlQura.host)
      ((firstOfYear .tabular).occurrences withTables)
      [{ year := 1446, month := 1, day := 1, variant := .tabular }] := by
    rw [occurrences_firstOfYear]
    exact ⟨rfl, rfl⟩
  obtain ⟨s, hafter⟩ :=
    after_eq_find? (arises_firstOfYear .tabular) hyields hread (.bool true) rfl
  have hcivil : Tabular.toCivil ⟨1446, 1, 1⟩ = .ok ⟨2024, 7, 8⟩ := by cbv
  have hday : Tabular.ofCivil ⟨2024, 7, 8⟩ = .ok ⟨1446, 1, 1⟩ := by cbv
  refine ⟨isIn_firstOfYear _, ⟨{ year := 1446, month := 1, day := 1, variant := .tabular }, ?_⟩,
    yields_firstOfYear ((Calculation.outcome_liftM _).trans hcivil), by decide, s, ?_⟩
  · have hbuilt : Built withTables (Observed.answers UmmAlQura.host)
        { year := 1446, month := 1, day := 1, variant := .tabular } := by cbv
    exact (@outcome_ofCivil_eq_ok withTables _ _ _ _ _ Tabular.calendar rfl rfl).2
      ⟨_, hday, rfl, hbuilt⟩
  · rw [afterCivil, Calculation.outcome_bind_ok hafter,
      Calculation.outcome_bind_ok (Calculation.outcome_attempt _ _)]
    rfl

end Recurrence

end HijriRecurrence
