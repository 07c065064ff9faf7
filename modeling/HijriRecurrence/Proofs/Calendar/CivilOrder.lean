import HijriRecurrence.Proofs.Observed.UmmAlQura
import HijriRecurrence.Proofs.Occurrence.Query
import HijriRecurrence.Proofs.Tabular.Correspondence

/-!
# The order of civil dates and of lunar days

Both calendars convert in order: of two dates the earlier one is on the earlier day, whether the
days come from the dates or the dates from the days (`Calendar.IsOrdered`).  The tabular calendar
numbers its days as civil dates are numbered (`Tabular.isOrdered`).  The observed calendar takes
every date from its host, so that it needs a host in order (`Observed.isOrdered`), such as the
Umm al-Qura tables (`UmmAlQura.host_isOrdered`).

`CivilDate.IsPast` says of civil dates what `LunarDate.IsPast` says of lunar ones.
-/

namespace HijriRecurrence

/-- A date lies past a bound: it is after the bound, or is the bound when the ends count. -/
def CivilDate.IsPast (inclusive : Bool) (bound g : CivilDate) : Prop :=
  bound.before g = true ∨ inclusive = true ∧ g = bound

instance (inclusive : Bool) (bound g : CivilDate) : Decidable (bound.IsPast inclusive g) := by
  unfold CivilDate.IsPast
  infer_instance

/-- A host answers later dates with later days. -/
def Host.IsOrdered (host : Host) : Prop :=
  ∀ g h a b, g.Valid → h.Valid → host g = .ok a → host h = .ok b → g.before h = true → a < b

/-- The days of civil dates and the civil dates of days stand in one order. -/
structure Calendar.IsOrdered (cal : Calendar) : Prop where
  valid : ∀ d h, cal.toCivil d = .ok h → h.Valid
  lt_iff : ∀ g h a d, g.Valid → cal.ofCivil g = .ok a → cal.toCivil d = .ok h →
    (a < d ↔ g.before h = true)
  gt_iff : ∀ g h a d, g.Valid → cal.ofCivil g = .ok a → cal.toCivil d = .ok h →
    (d < a ↔ h.before g = true)

namespace CivilDate

variable {g h : CivilDate}

theorem not_before_of_before (hb : g.before h = true) : ¬h.before g = true := by
  rw [before_iff] at hb ⊢
  omega

theorem not_before_self (g : CivilDate) : ¬g.before g = true := by
  rw [before_iff]
  omega

/-- A date is past a bound, which may count, exactly when the bound is not after it. -/
theorem isPast_true_iff : g.IsPast true h ↔ ¬h.before g = true := by
  constructor
  · rintro (hb | ⟨-, rfl⟩)
    · exact not_before_of_before hb
    · exact not_before_self h
  · intro hnot
    rcases before_or_eq_or_before g h with hb | rfl | hb
    · exact Or.inl hb
    · exact Or.inr ⟨rfl, rfl⟩
    · exact absurd hb hnot

theorem isPast_false_iff : g.IsPast false h ↔ g.before h = true := by
  simp [IsPast]

end CivilDate

namespace Calendar.IsOrdered

variable {cal : Calendar} {g h : CivilDate} {a d : LunarDate}

/-- What lies past the day of a date is what lies past the date. -/
theorem isPast_iff (hcal : cal.IsOrdered) (hg : g.Valid) (ha : cal.ofCivil g = .ok a.toLunarDay)
    (hd : cal.toCivil d.toLunarDay = .ok h) (inclusive : Bool) :
    a.IsPast inclusive d ↔ g.IsPast inclusive h := by
  cases inclusive with
  | false => exact (hcal.lt_iff g h _ _ hg ha hd).trans CivilDate.isPast_false_iff.symm
  | true => exact (not_congr (hcal.gt_iff g h _ _ hg ha hd)).trans CivilDate.isPast_true_iff.symm

/-- What lies before the day of a date is what lies before the date. -/
theorem isBefore_iff (hcal : cal.IsOrdered) (hg : g.Valid) (ha : cal.ofCivil g = .ok a.toLunarDay)
    (hd : cal.toCivil d.toLunarDay = .ok h) (inclusive : Bool) :
    d.IsPast inclusive a ↔ h.IsPast inclusive g := by
  cases inclusive with
  | false => exact (hcal.gt_iff g h _ _ hg ha hd).trans CivilDate.isPast_false_iff.symm
  | true => exact (not_congr (hcal.lt_iff g h _ _ hg ha hd)).trans CivilDate.isPast_true_iff.symm

end Calendar.IsOrdered

/-! ### The tabular calendar -/

namespace Tabular

variable {g : CivilDate} {d : LunarDay}

theorem isDay_of_ofCivil (h : ofCivil g = .ok d) : IsDay d ∧ dayNumberOf d = g.dayNumber := by
  unfold ofCivil at h
  by_cases hlt : g.dayNumber < epoch
  · rw [ofDayNumber_of_lt hlt] at h
    cases h
  · obtain ⟨e, he, hday, hnumber⟩ := ofDayNumber_spec (Int.not_lt.1 hlt)
    obtain rfl := Except.ok.inj (he.symm.trans h)
    exact ⟨hday, hnumber⟩

theorem toCivil_eq_ok : toCivil d = .ok g ↔ IsDay d ∧ g.Valid ∧ g.dayNumber = dayNumberOf d := by
  unfold toCivil
  rw [Calculation.except_bind_eq_ok]
  constructor
  · rintro ⟨n, hn, hg⟩
    obtain ⟨hday, rfl⟩ := dayNumber_eq_ok.1 hn
    exact ⟨hday, civilOfDayNumber_eq_ok.1 hg⟩
  · rintro ⟨hday, hg⟩
    exact ⟨dayNumberOf d, dayNumber_of_isDay hday, civilOfDayNumber_eq_ok.2 hg⟩

/-- **The tabular calendar converts in order.** -/
theorem isOrdered : calendar.IsOrdered where
  valid d h hd := (toCivil_eq_ok.1 hd).2.1
  lt_iff g h a d hg ha hd := by
    obtain ⟨hday, hnumber⟩ := isDay_of_ofCivil ha
    obtain ⟨hday', hh, hnumber'⟩ := toCivil_eq_ok.1 hd
    rw [← dayNumberOf_lt_iff hday hday', hnumber, ← hnumber',
      CivilDate.dayNumber_lt_iff_before hg hh]
  gt_iff g h a d hg ha hd := by
    obtain ⟨hday, hnumber⟩ := isDay_of_ofCivil ha
    obtain ⟨hday', hh, hnumber'⟩ := toCivil_eq_ok.1 hd
    rw [← dayNumberOf_lt_iff hday' hday, hnumber, ← hnumber',
      CivilDate.dayNumber_lt_iff_before hh hg]

end Tabular

/-! ### The observed calendar -/

namespace Host.IsOrdered

variable {host : Host} {g h : CivilDate} {a b : LunarDay}

/-- Dates that a host knows stand in the order of their days. -/
theorem lt_iff (hhost : host.IsOrdered) (hg : g.Valid) (hh : h.Valid) (ha : host g = .ok a)
    (hb : host h = .ok b) : a < b ↔ g.before h = true := by
  refine ⟨fun hlt => ?_, hhost g h a b hg hh ha hb⟩
  rcases CivilDate.before_or_eq_or_before g h with hbefore | rfl | hbefore
  · exact hbefore
  · obtain rfl := Except.ok.inj (ha.symm.trans hb)
    exact absurd hlt (LunarDay.lt_irrefl a)
  · exact absurd (LunarDay.lt_trans hlt (hhost h g b a hh hg hb ha hbefore)) (LunarDay.lt_irrefl a)

/-- A host in order has a day on one date only. -/
theorem injective (hhost : host.IsOrdered) (hg : g.Valid) (hh : h.Valid) (ha : host g = .ok a)
    (hb : host h = .ok a) : g = h := by
  rcases CivilDate.before_or_eq_or_before g h with hbefore | heq | hbefore
  · exact absurd (hhost g h a a hg hh ha hb hbefore) (LunarDay.lt_irrefl a)
  · exact heq
  · exact absurd (hhost h g a a hh hg hb ha hbefore) (LunarDay.lt_irrefl a)

end Host.IsOrdered

namespace Observed

variable {host : Host}

/-- **The observed calendar of a host in order converts in order.** -/
theorem isOrdered (hhost : host.IsOrdered) : (calendar host).IsOrdered where
  valid d h hd := (host_of_toCivil hd).1
  lt_iff g h a d hg ha hd := by
    obtain ⟨hh, hday⟩ := host_of_toCivil hd
    exact hhost.lt_iff hg hh (ofCivil_eq_ok.1 ha) hday
  gt_iff g h a d hg ha hd := by
    obtain ⟨hh, hday⟩ := host_of_toCivil hd
    exact hhost.lt_iff hh hg hday (ofCivil_eq_ok.1 ha)

end Observed

/-- **The Umm al-Qura tables are in order.** -/
theorem UmmAlQura.host_isOrdered : host.IsOrdered := by
  intro g h a b hg hh ha hb hbefore
  have hlt := (CivilDate.dayNumber_lt_iff_before hg hh).2 hbefore
  obtain ⟨hm, hindex, hday, hnumber⟩ := host_eq_ok_iff.1 ha
  obtain ⟨hm', hindex', hday', hnumber'⟩ := host_eq_ok_iff.1 hb
  rw [MonthTable.lt_iff_of_months hm hm']
  by_cases hmonth : LunarDate.monthIndex a < LunarDate.monthIndex b
  · exact Or.inl hmonth
  · by_cases heq : LunarDate.monthIndex a = LunarDate.monthIndex b
    · rw [heq] at hnumber
      exact Or.inr ⟨heq, by omega⟩
    · have hle : start (LunarDate.monthIndex b + 1) ≤ start (LunarDate.monthIndex a) :=
        start_mono (by omega) (by omega) (by omega)
      omega

end HijriRecurrence
