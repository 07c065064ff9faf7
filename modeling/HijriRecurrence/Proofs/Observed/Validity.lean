import HijriRecurrence.Proofs.Calendar.CachedLengths
import HijriRecurrence.Proofs.Number.RoundingOrder
import HijriRecurrence.Proofs.Observed.Correspondence

/-!
# Month lengths and valid days, for all years

The observed calendar finds the length of a month, and with it whether a day is valid, by searching.
Whatever the host answers, such a search ends with 29 or 30 days, or with the failure that there is
no such day, as long as its windows stay among civil dates.  They do so up to the year 9665.  From
the year 9667 on every search starts beyond the last civil date, and the failure of looking there
is one that nobody catches: the question whether a day is valid fails instead of being answered
with no (`validity_of_years`).

* `estimate_mono_year`, `estimate_beyond` — where a day of a late year is expected;
* `search_of_beyond` — how a search fails that starts beyond the last civil date;
* `probeMonth_cases` — what a search for a length comes to;
* `outcome_isValidDay` — a day is valid when its month is found to have it.
-/

namespace HijriRecurrence

namespace Observed

open Binary64

variable {host : Host} {target d later : LunarDay} {expected year month : Int}

/-! ### Days beyond the last civil date -/

theorem meanYear_nonneg : 0 ≤ meanYear := by
  have hlow := meanYear_bounds.1
  exact le_trans (by norm_num) hlow

/-- A day of a later year is not expected earlier. -/
theorem estimate_mono_year {expected' : Int} (hle : d.year ≤ later.year)
    (hmonth : d.month = later.month) (hday : d.day = later.day) (hd : estimate d = .ok expected)
    (hlater : estimate later = .ok expected') : expected ≤ expected' := by
  unfold estimate ofInt? at hd hlater
  have hyears : round53 ((d.year - 1 : ℤ) : ℚ) ≤ round53 ((later.year - 1 : ℤ) : ℚ) :=
    round53_mono (by exact_mod_cast Int.sub_le_sub_right hle 1)
  have hproduct := mul_le_mul_of_nonneg_right hyears meanYear_nonneg
  dsimp only at hd hlater
  split_ifs at hd hlater
  · obtain rfl := Except.ok.inj hd
    obtain rfl := Except.ok.inj hlater
    rw [hmonth, hday]
    refine Int.add_le_add_left (Rat.floor_monotone (round53_mono ?_)) _
    refine sub_le_sub_right (round53_mono (add_le_add_left (round53_mono ?_) _)) _
    exact add_le_add_left (round53_mono hproduct) _

/-- **From the year 9667 on days are expected beyond the last civil date,** or the year is too large
to expect them anywhere. -/
theorem estimate_beyond (hy : 9667 ≤ d.year) (hm : 1 ≤ d.month ∧ d.month ≤ 12)
    (hday : 1 ≤ d.day ∧ d.day ≤ 30) :
    estimate d = .error .numberTooLarge ∨
      ∃ expected, estimate d = .ok expected ∧ lastCivilOrdinal < expected := by
  obtain ⟨first, hfirst, hlow, -⟩ :=
    estimate_spec (d := { d with year := 9667 }) (by dsimp only; omega) hm hday
  cases hexpected : estimate d with
  | error e =>
    left
    unfold estimate at hexpected
    split at hexpected
    · exact hexpected.symm
    · cases hexpected
  | ok expected =>
    right
    have hle : first ≤ expected :=
      estimate_mono_year (d := { d with year := 9667 }) hy rfl rfl hfirst hexpected
    refine ⟨expected, rfl, ?_⟩
    unfold meanMillionths epochOrdinal at hlow
    unfold lastCivilOrdinal
    dsimp only at hlow
    omega

/-- The first look of a search is where the day is expected. -/
theorem search_of_beyond (hexpected : estimate target = .ok expected)
    (hbeyond : lastCivilOrdinal < expected) :
    search host target = .error (.civilBeyondEnd expected) := by
  have hfirst : max 1 (expected - searchWindow) = expected - searchWindow := by
    unfold lastCivilOrdinal at hbeyond
    unfold searchWindow
    omega
  have hmid : (expected - searchWindow + (expected + searchWindow)) / 2 = expected := by
    omega
  have hlook : halve host target expected (expected - searchWindow) (expected + searchWindow) =
      .error (.civilBeyondEnd expected) := by
    rw [halve, dif_pos (by unfold searchWindow; omega)]
    simp only [hmid, probe, if_pos hbeyond]
  unfold search
  simp only [hexpected, hfirst, bind, Except.bind, hlook]

/-! ### The length of a month -/

/-- A failure of looking where there are no civil dates. -/
def IsBeyond (e : Error) : Prop := e.kind = .badValue ∨ e.kind = .overflow

/-- Nobody catches such a failure. -/
theorem IsBeyond.not_caught {e : Error} (h : IsBeyond e) :
    ¬(e.kind = .conversionFailure ∨ e.kind = .outOfRange) := by
  rcases h with hkind | hkind <;> simp [hkind]

theorem isBeyond_civilBeyondEnd (n : Int) : IsBeyond (.civilBeyondEnd n) := by
  unfold IsBeyond Error.kind
  dsimp only
  split <;> simp

/-- A search finds nothing, or it goes beyond the civil dates. -/
theorem search_fails {e : Error} (h : search host target = .error e) :
    e = .noCivilDay target ∨ IsBeyond e := by
  cases hexpected : estimate target with
  | error e' =>
    right
    unfold search at h
    rw [hexpected] at h
    obtain rfl := Except.error.inj h
    unfold estimate at hexpected
    split at hexpected
    · obtain rfl := Except.error.inj hexpected
      exact .inr rfl
    · cases hexpected
  | ok expected =>
    rcases error_of_search hexpected h with rfl | ⟨n, -, -, rfl⟩
    · exact .inl rfl
    · exact .inr (isBeyond_civilBeyondEnd n)

/-- What is found for the length of a month: 29 or 30 days, or that there is no such day. -/
def IsFound (x : Except Error Int) : Prop :=
  x = .ok 29 ∨ x = .ok 30 ∨ ∃ e, x = .error e ∧ e.kind = .conversionFailure

/-- The length of a month is a search for its thirtieth day, and else one for the day before. -/
theorem probeMonth_of_search (hy : 1 ≤ year) (hm : 1 ≤ month ∧ month ≤ 12) :
    probeMonth host year month =
      match search host ⟨year, month, 30⟩ with
      | .ok _ => .ok 30
      | .error e =>
        if e.kind = .conversionFailure then (search host ⟨year, month, 29⟩).map fun _ => 29
        else .error e := by
  have h30 : toCivil host ⟨year, month, 30⟩ = search host ⟨year, month, 30⟩ :=
    toCivil_of_inShape ⟨hy, hm, by simp, by simp⟩
  have h29 : toCivil host ⟨year, month, 29⟩ = search host ⟨year, month, 29⟩ :=
    toCivil_of_inShape ⟨hy, hm, by simp, by simp⟩
  cases hsearch : search host ⟨year, month, 30⟩ with
  | ok g => simp only [probeMonth, h30, hsearch]
  | error e => simp only [probeMonth, h30, h29, hsearch]

/-- When the searches for the last days of a month find something, find nothing or fail in some
other way that is not caught, then so does the search for its length. -/
theorem probeMonth_of_fails {P : Error → Prop} (hy : 1 ≤ year) (hm : 1 ≤ month ∧ month ≤ 12)
    (hcaught : ∀ e, P e → e.kind ≠ .conversionFailure)
    (hfails : ∀ day, 29 ≤ day → day ≤ 30 → ∀ e, search host ⟨year, month, day⟩ = .error e →
      e = .noCivilDay ⟨year, month, day⟩ ∨ P e) :
    IsFound (probeMonth host year month) ∨ ∃ e, probeMonth host year month = .error e ∧ P e := by
  rw [probeMonth_of_search hy hm]
  cases h30 : search host ⟨year, month, 30⟩ with
  | ok g => exact .inl (.inr (.inl rfl))
  | error e =>
    rcases hfails 30 (by norm_num) (by norm_num) e h30 with rfl | hother
    · cases h29 : search host ⟨year, month, 29⟩ with
      | ok g => exact .inl (.inl rfl)
      | error e =>
        rcases hfails 29 (by norm_num) (by norm_num) e h29 with rfl | hother
        · exact .inl (.inr (.inr ⟨_, rfl, rfl⟩))
        · exact .inr ⟨e, rfl, hother⟩
    · exact .inr ⟨e, if_neg (hcaught e hother), hother⟩

/-- **A search for a length finds one, or finds that there is no such day, or goes beyond the civil
dates.** -/
theorem probeMonth_cases (hy : 1 ≤ year) (hm : 1 ≤ month ∧ month ≤ 12) :
    IsFound (probeMonth host year month) ∨
      ∃ e, probeMonth host year month = .error e ∧ IsBeyond e := by
  refine probeMonth_of_fails hy hm (fun e hbeyond hkind => hbeyond.not_caught (.inl hkind)) ?_
  intro day _ _ e he
  exact search_fails he

/-- Searches that stay among civil dates find out. -/
theorem isFound_of_staysCivil (hy : 1 ≤ year) (hm : 1 ≤ month ∧ month ≤ 12)
    (hstays : ∀ day, 29 ≤ day → day ≤ 30 → StaysCivil ⟨year, month, day⟩) :
    IsFound (probeMonth host year month) := by
  have hcases : IsFound (probeMonth host year month) ∨
      ∃ e, probeMonth host year month = .error e ∧ False := by
    refine probeMonth_of_fails hy hm (fun e hfalse => hfalse.elim) ?_
    intro day hlow hhigh e he
    obtain ⟨expected, hexpected, hwindow⟩ := hstays day hlow hhigh
    rcases @search_cases host _ _ hexpected hwindow with ⟨g, hg⟩ | ⟨hnone, -⟩
    · rw [hg] at he
      cases he
    · exact .inl (Except.error.inj (he.symm.trans hnone))
  rcases hcases with hfound | ⟨e, -, hfalse⟩
  · exact hfound
  · exact hfalse.elim

/-- From the year 9667 on every search for a length goes beyond the civil dates. -/
theorem probeMonth_of_beyond (hy : 9667 ≤ year) (hm : 1 ≤ month ∧ month ≤ 12) :
    ∃ e, probeMonth host year month = .error e ∧ IsBeyond e := by
  have hfails : ∃ e, search host ⟨year, month, 30⟩ = .error e ∧ IsBeyond e := by
    rcases estimate_beyond (d := ⟨year, month, 30⟩) hy hm (by simp) with
      htoo | ⟨expected, hexpected, hend⟩
    · refine ⟨.numberTooLarge, ?_, .inr rfl⟩
      unfold search
      rw [htoo]
      rfl
    · exact ⟨_, search_of_beyond hexpected hend, isBeyond_civilBeyondEnd expected⟩
  obtain ⟨e, he, hbeyond⟩ := hfails
  rw [probeMonth_of_search (by omega) hm, he]
  exact ⟨e, if_neg fun hkind => hbeyond.not_caught (.inl hkind), hbeyond⟩

/-! ### Valid days -/

/-- Whether a day is valid, when the search for the length of its month comes to something. -/
def validWithin (day : Int) : Except Error Int → Except Error Bool
  | .ok length => .ok (decide (day ≤ length))
  | .error e => if e.kind = .conversionFailure ∨ e.kind = .outOfRange then .ok false else .error e

/-- A day is valid when its month is found to have it. -/
theorem outcome_isValidDay (d : LunarDay) :
    ((calendar host).isValidDay d).outcome (answers host) =
      if d.year < 1 ∨ d.month < 1 ∨ 12 < d.month ∨ d.day < 1 then .ok false
      else validWithin d.day (probeMonth host d.year d.month) := by
  unfold Calendar.isValidDay
  by_cases hshape : d.year < 1 ∨ d.month < 1 ∨ 12 < d.month ∨ d.day < 1
  · rw [if_pos hshape, if_pos hshape]
    rfl
  · have hlength : ((calendar host).monthLength d.year d.month).outcome (answers host) =
        (probeMonth host d.year d.month).map .whole := outcome_monthLength (by omega)
    rw [if_neg hshape, if_neg hshape, Calculation.outcome_tryCatch, Calculation.outcome_bind,
      hlength]
    cases probeMonth host d.year d.month with
    | ok length => rfl
    | error e =>
      simp only [Except.map, bind, Except.bind, validWithin]
      split <;> rfl

end Observed

namespace Backend

open Observed

variable {host : Host} {backend : Backend}

/-- A backend of the observed calendar that keeps no cache, or one that holds what searches find. -/
def Searches (host : Host) (backend : Backend) : Prop :=
  backend = observed none ∨ ∃ size, 0 ≤ size ∧ backend.KeepsLengths host size

/-- A backend of the observed calendar searches when it is new. -/
theorem searches_newObserved (keepsCache : Bool) {size : Int} (hsize : 0 ≤ size) :
    (Registry.newObserved (.bool keepsCache) (.int size)).Searches host := by
  cases keepsCache with
  | false => exact .inl rfl
  | true => exact .inr ⟨size, hsize, _, rfl, MonthCache.holds_empty hsize⟩

theorem Searches.monthLength (h : backend.Searches host) (year month : Int) :
    (backend.monthLength host year month).1 = (probeMonth host year month).map .whole := by
  rcases h with rfl | ⟨size, hsize, cache, rfl, hcache⟩
  · rw [monthLength_uncached]
  · obtain ⟨used, hcall, -⟩ := monthLength_of_holds hcache hsize year month
    rw [hcall, monthLength_uncached]

theorem Searches.isValidDate (h : backend.Searches host) (year month day : Int) :
    (backend.isValidDate host (.int year) (.int month) (.int day)).1 =
      ((Observed.calendar host).isValidDay ⟨year, month, day⟩).outcome (answers host) := by
  rcases h with rfl | ⟨size, hsize, cache, rfl, hcache⟩
  · have hfaithful : ∀ (s : Backend) (inquiry : Inquiry), s = observed none →
        (s.answer host inquiry).1 = answers host inquiry ∧
          (s.answer host inquiry).2 = observed none := by
      rintro _ inquiry rfl
      cases inquiry with
      | calendar => exact ⟨rfl, rfl⟩
      | month year month => exact ⟨congrArg Prod.fst monthLength_uncached,
          congrArg Prod.snd monthLength_uncached⟩
    exact (Calculation.run_of_faithful hfaithful _ rfl).1
  · exact run_of_holds hcache hsize fun cal => cal.isValidDate (.int year) (.int month) (.int day)

/-- A backend answers for a month: it finds 29 or 30 days, or that there is no such month, and the
days of the month are valid up to what it finds. -/
structure AnswersFor (host : Host) (backend : Backend) (year month : Int) : Prop where
  length : (backend.monthLength host year month).1 = .ok (.whole 29) ∨
    (backend.monthLength host year month).1 = .ok (.whole 30) ∨
    ∃ e, (backend.monthLength host year month).1 = .error e ∧ e.kind = .conversionFailure
  valid : ∀ day, 1 ≤ day →
    ∃ valid, (backend.isValidDate host (.int year) (.int month) (.int day)).1 = .ok valid ∧
      (valid = true ↔
        ∃ length, (backend.monthLength host year month).1 = .ok (.whole length) ∧ day ≤ length)

/-- A backend fails for a month in looking where there are no civil dates, and it does so for the
days of the month as for its length. -/
def FailsFor (host : Host) (backend : Backend) (year month : Int) : Prop :=
  ∃ e, IsBeyond e ∧ (backend.monthLength host year month).1 = .error e ∧
    ∀ day, 1 ≤ day → (backend.isValidDate host (.int year) (.int month) (.int day)).1 = .error e

section Month

variable {year month : Int} (h : backend.Searches host) (hy : 1 ≤ year)
  (hm : 1 ≤ month ∧ month ≤ 12)

include h hy hm

theorem Searches.isValidDate_within {day : Int} (hday : 1 ≤ day) :
    (backend.isValidDate host (.int year) (.int month) (.int day)).1 =
      validWithin day (probeMonth host year month) := by
  rw [h.isValidDate, outcome_isValidDay]
  exact if_neg (by dsimp only; omega)

/-- A backend answers for a month when its search finds out. -/
theorem Searches.answersFor (hfound : IsFound (probeMonth host year month)) :
    backend.AnswersFor host year month := by
  have hvalid {day : Int} (hday : 1 ≤ day) := h.isValidDate_within hy hm hday
  rcases hfound with hlength | hlength | ⟨e, hlength, hkind⟩
  · rw [hlength] at hvalid
    have hcall : (backend.monthLength host year month).1 = .ok (.whole 29) := by
      rw [h.monthLength, hlength]
      rfl
    exact ⟨.inl hcall, fun day hday => ⟨_, hvalid hday, by simp [hcall]⟩⟩
  · rw [hlength] at hvalid
    have hcall : (backend.monthLength host year month).1 = .ok (.whole 30) := by
      rw [h.monthLength, hlength]
      rfl
    exact ⟨.inr (.inl hcall), fun day hday => ⟨_, hvalid hday, by simp [hcall]⟩⟩
  · rw [hlength] at hvalid
    have hcall : (backend.monthLength host year month).1 = .error e := by
      rw [h.monthLength, hlength]
      rfl
    refine ⟨.inr (.inr ⟨e, hcall, hkind⟩), fun day hday => ⟨false, ?_, by simp [hcall]⟩⟩
    exact (hvalid hday).trans (if_pos (.inl hkind))

/-- A backend fails for a month when its search goes beyond the civil dates. -/
theorem Searches.failsFor {e : Error} (he : probeMonth host year month = .error e)
    (hbeyond : IsBeyond e) : backend.FailsFor host year month := by
  refine ⟨e, hbeyond, ?_, fun day hday => ?_⟩
  · rw [h.monthLength, he]
    rfl
  · rw [h.isValidDate_within hy hm hday, he]
    exact if_neg hbeyond.not_caught

end Month

/-- **When a backend answers whether a day is valid.**  A triple whose parts are out of range is no
day.  For a month of any year a backend answers, or it fails in looking beyond the last civil date;
nothing else happens.  Up to the year 9665 it answers, and from the year 9667 on it fails, whatever
the host. -/
theorem validity_of_years (h : backend.Searches host) (year month day : Int) :
    (¬(1 ≤ year ∧ (1 ≤ month ∧ month ≤ 12) ∧ 1 ≤ day) →
      (backend.isValidDate host (.int year) (.int month) (.int day)).1 = .ok false) ∧
    (1 ≤ year → 1 ≤ month ∧ month ≤ 12 →
      (backend.AnswersFor host year month ∨ backend.FailsFor host year month) ∧
      (year ≤ 9665 → backend.AnswersFor host year month) ∧
      (9667 ≤ year → backend.FailsFor host year month)) := by
  refine ⟨fun hshape => ?_, fun hy hm => ⟨?_, fun hearly => ?_, fun hlate => ?_⟩⟩
  · rw [h.isValidDate, outcome_isValidDay]
    exact if_pos (by dsimp only; omega)
  · rcases probeMonth_cases hy hm with hfound | ⟨e, he, hbeyond⟩
    · exact .inl (h.answersFor hy hm hfound)
    · exact .inr (h.failsFor hy hm he hbeyond)
  · refine h.answersFor hy hm (isFound_of_staysCivil hy hm fun day hlow hhigh => ?_)
    exact staysCivil_of_year ⟨hy, hearly⟩ hm ⟨by dsimp only; omega, hhigh⟩
  · obtain ⟨e, he, hbeyond⟩ := probeMonth_of_beyond hlate hm
    exact h.failsFor hy hm he hbeyond

/-- A new backend of the Umm al-Qura calendar answers for the last month of its tables and for the
month after them, and it fails for the year 10000. -/
theorem validity_of_years_newObserved :
    (Registry.newObserved (.bool true) (.int 500)).Searches UmmAlQura.host ∧
    (Registry.newObserved (.bool true) (.int 500)).AnswersFor UmmAlQura.host 1500 12 ∧
    (Registry.newObserved (.bool true) (.int 500)).AnswersFor UmmAlQura.host 1501 1 ∧
    (Registry.newObserved (.bool true) (.int 500)).FailsFor UmmAlQura.host 10000 1 := by
  have hnew : (Registry.newObserved (.bool true) (.int 500)).Searches UmmAlQura.host :=
    searches_newObserved true (by decide)
  obtain ⟨-, hlast⟩ := validity_of_years hnew 1500 12 1
  obtain ⟨-, hafter⟩ := validity_of_years hnew 1501 1 1
  obtain ⟨-, hbeyond⟩ := validity_of_years hnew 10000 1 1
  exact ⟨hnew, (hlast (by decide) (by decide)).2.1 (by decide),
    (hafter (by decide) (by decide)).2.1 (by decide),
    (hbeyond (by decide) (by decide)).2.2 (by decide)⟩

/-- **The question whether a day is valid may fail.**  So it does for 1 Muharram 10000: a search for
the last days of that month starts beyond the last civil date. -/
theorem isValidDate_fails_year10000 :
    ∃ e, ((Registry.newObserved (.bool true) (.int 500)).isValidDate UmmAlQura.host (.int 10000)
        (.int 1) (.int 1)).1 = .error e ∧ e.kind = .badValue := by
  have hnew : (Registry.newObserved (.bool true) (.int 500)).Searches UmmAlQura.host :=
    searches_newObserved true (by decide)
  obtain ⟨expected, hexpected, hlow, hhigh⟩ :=
    estimate_spec (d := ⟨10000, 1, 30⟩) (by decide) (by decide) (by decide)
  unfold meanMillionths epochOrdinal at hlow hhigh
  dsimp only at hlow hhigh
  have hword : expected ≤ Error.lastWord := by
    unfold Error.lastWord
    omega
  have hsearch : search UmmAlQura.host ⟨10000, 1, 30⟩ = .error (.civilBeyondEnd expected) :=
    search_of_beyond hexpected (by unfold lastCivilOrdinal; omega)
  have hkind : (Error.civilBeyondEnd expected).kind = .badValue := if_pos hword
  refine ⟨.civilBeyondEnd expected, ?_, hkind⟩
  rw [hnew.isValidDate_within (by decide) (by decide) (by decide),
    probeMonth_of_search (by decide) (by decide), hsearch]
  dsimp only
  rw [if_neg (by simp [hkind])]
  exact if_neg (isBeyond_civilBeyondEnd expected).not_caught

end Backend

end HijriRecurrence
