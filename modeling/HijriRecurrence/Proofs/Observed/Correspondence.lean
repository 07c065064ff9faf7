import HijriRecurrence.Proofs.Observed.UmmAlQura

/-!
# Days of the tables and civil dates correspond

A host has months in a row from the first month of 1343 to the last one of 1500, each of some length
(`Host.Tabulates`).  The search of the observed calendar undoes what the host does, for all days up
to the thirtieth of their month, when no month starts far from where mean lengths put it
(`StartsNearMean`); the window of the search is what bounds how far that may be.

* `exists_toCivil`, `toCivil_of_not_hasDay` — which days the search finds, and where;
* `probeMonth_eq` — what it takes for the length of a month;
* `numberOf_lt`, `numberOf_follows` — days are numbered in their order and without gaps;
* `civil_correspondence` — all of this together.

That all months have 29 or 30 days is not enough: months of 29 days throughout drift out of the
window (`shortMonths_tabulates`).  Nor is it so of the Umm al-Qura tables, which the correspondence
covers all the same (`UmmAlQura.host_tabulates`, `UmmAlQura.startsNearMean_allLengths`).
-/

namespace HijriRecurrence

open LunarDate UmmAlQura

variable {host : Host} {lengths : List Int} {a b d : LunarDay} {g : CivilDate}

namespace Observed

/-! ### Months in a row -/

/-- The length of a month among months in a row from the first one of the tables on. -/
def lengthOf? (lengths : List Int) (month : Int) : Option Int :=
  if firstMonth ≤ month then lengths[(month - firstMonth).toNat]? else none

/-- The days of months in a row. -/
def HasDay (lengths : List Int) (d : LunarDay) : Prop :=
  (1 ≤ d.month ∧ d.month ≤ 12) ∧ 1 ≤ d.day ∧
    ∃ length, lengthOf? lengths (monthIndex d) = some length ∧ d.day ≤ length

instance (lengths : List Int) (d : LunarDay) : Decidable (HasDay lengths d) :=
  decidable_of_iff ((1 ≤ d.month ∧ d.month ≤ 12) ∧ 1 ≤ d.day ∧
    ∃ length ∈ lengthOf? lengths (monthIndex d), d.day ≤ length) Iff.rfl

/-- The number of a day of months in a row. -/
def numberOf (lengths : List Int) (d : LunarDay) : Int :=
  startOf lengths (monthIndex d) + d.day - 1

/-- One day follows another: it is the next one of the month, or after the last one the first of the
next month. -/
def Follows (lengths : List Int) (a b : LunarDay) : Prop :=
  monthIndex b = monthIndex a ∧ b.day = a.day + 1 ∨
    lengthOf? lengths (monthIndex a) = some a.day ∧ monthIndex b = monthIndex a + 1 ∧ b.day = 1

/-- No month starts more than 58 days from where exact mean lengths put it. -/
def StartsNearMean (lengths : List Int) : Prop :=
  ∀ month, firstMonth ≤ month → month < firstMonth + lengths.length →
    -58000000 ≤ drift month (startOf lengths month) ∧
      drift month (startOf lengths month) ≤ 58000000

/-- The search for a day stays among civil dates. -/
def StaysCivil (d : LunarDay) : Prop :=
  ∃ expected, estimate d = .ok expected ∧ expected + searchWindow ≤ lastCivilOrdinal

/-- Searches for days of years up to 9665 stay among civil dates. -/
theorem staysCivil_of_year (hy : 1 ≤ d.year ∧ d.year ≤ 9665) (hm : 1 ≤ d.month ∧ d.month ≤ 12)
    (hday : 1 ≤ d.day ∧ d.day ≤ 30) : StaysCivil d := by
  obtain ⟨expected, hexpected, -, hhigh⟩ := estimate_spec (d := d) (by omega) hm hday
  refine ⟨expected, hexpected, ?_⟩
  unfold meanMillionths epochOrdinal at hhigh
  unfold searchWindow lastCivilOrdinal
  omega

theorem lengthOf?_eq_some {month length : Int} (h : lengthOf? lengths month = some length) :
    ∃ count, ∃ hcount : count < lengths.length, month = firstMonth + count ∧
      lengths[count] = length := by
  unfold lengthOf? at h
  split at h
  · rename_i hle
    obtain ⟨count, rfl⟩ := Int.le.dest hle
    rw [show (firstMonth + (count : Int) - firstMonth).toNat = count by omega] at h
    obtain ⟨hcount, hlength⟩ := List.getElem?_eq_some_iff.1 h
    exact ⟨count, hcount, rfl, hlength⟩
  · cases h

theorem startOf_of_lengthOf? {month length : Int} (h : lengthOf? lengths month = some length) :
    startOf lengths (month + 1) = startOf lengths month + length := by
  obtain ⟨count, hcount, rfl, rfl⟩ := lengthOf?_eq_some h
  exact startOf_succ hcount

theorem bounds_of_lengthOf? {month length : Int} (h : lengthOf? lengths month = some length) :
    firstMonth ≤ month ∧ month < firstMonth + lengths.length := by
  obtain ⟨count, hcount, rfl, -⟩ := lengthOf?_eq_some h
  omega

end Observed

open Observed

/-- A host has the days of months in a row, from 1343 to 1500, on the dates of their numbers, and no
day on any other date. -/
structure Host.Tabulates (host : Host) (lengths : List Int) : Prop where
  length : lengths.length = 1896
  pos : ∀ length ∈ lengths, 1 ≤ length
  host_eq : ∀ (g : CivilDate) (d : LunarDay), g.Valid →
    (host g = .ok d ↔ HasDay lengths d ∧ g.dayNumber = numberOf lengths d)

namespace Observed

/-! ### Numbers -/

/-- Days are numbered in their order. -/
theorem numberOf_lt (hpos : ∀ length ∈ lengths, 1 ≤ length) (ha : HasDay lengths a)
    (hb : HasDay lengths b) (h : a < b) : numberOf lengths a < numberOf lengths b := by
  obtain ⟨hma, hda, length, hlength, hda'⟩ := ha
  obtain ⟨hmb, hdb, lengthb, hlengthb, hdb'⟩ := hb
  have hnext := startOf_of_lengthOf? hlength
  have hlow := (bounds_of_lengthOf? hlength).1
  have hhigh := (bounds_of_lengthOf? hlengthb).2
  unfold numberOf
  rcases (MonthTable.lt_iff_of_months hma hmb).1 h with hmonth | ⟨hmonth, hday⟩
  · have hle := startOf_mono (fun l hl => Int.le_trans Int.one_nonneg (hpos l hl))
      (show monthIndex a + 1 ≤ monthIndex b by omega) (by omega) (by omega)
    omega
  · rw [hmonth]
    omega

theorem numberOf_lt_iff (hpos : ∀ length ∈ lengths, 1 ≤ length) (ha : HasDay lengths a)
    (hb : HasDay lengths b) : a < b ↔ numberOf lengths a < numberOf lengths b := by
  refine ⟨numberOf_lt hpos ha hb, fun hlt => ?_⟩
  rcases LunarDay.lt_trichotomy a b with h | rfl | h
  · exact h
  · omega
  · have hgt := numberOf_lt hpos hb ha h
    omega

/-- A day that follows has the number that follows. -/
theorem numberOf_follows (h : Follows lengths a b) :
    numberOf lengths b = numberOf lengths a + 1 := by
  unfold numberOf
  rcases h with ⟨hmonth, hday⟩ | ⟨hlength, hmonth, hday⟩
  · rw [hmonth, hday]
    omega
  · rw [hmonth, hday, startOf_of_lengthOf? hlength]
    omega

/-! ### The search -/

/-- Days up to the thirtieth are looked for in a window that has their number. -/
theorem near_of_hasDay (hcount : lengths.length = 1896) (hnear : StartsNearMean lengths)
    (hd : HasDay lengths d) (hle : d.day ≤ 30) :
    ∃ expected, estimate d = .ok expected ∧
      InWindow expected (numberOf lengths d - civilEpoch) ∧
        expected + searchWindow ≤ lastCivilOrdinal := by
  obtain ⟨hm, hday, length, hlength, -⟩ := hd
  obtain ⟨hlow, hhigh⟩ := bounds_of_lengthOf? hlength
  obtain ⟨hearly, hlate⟩ := hnear _ hlow hhigh
  rw [hcount] at hhigh
  exact window_of_drift hlow hhigh hm ⟨hday, hle⟩ hearly hlate

theorem inShape_of_hasDay (hd : HasDay lengths d) (hle : d.day ≤ 30) : InShape d := by
  obtain ⟨hm, hday, length, hlength, -⟩ := hd
  have hlow := (bounds_of_lengthOf? hlength).1
  unfold firstMonth firstYear monthIndex at hlow
  exact ⟨by omega, hm, hday, hle⟩

/-- **Days up to the thirtieth are found**, on the date that has their number. -/
theorem exists_toCivil (h : host.Tabulates lengths) (hnear : StartsNearMean lengths)
    (hd : HasDay lengths d) (hle : d.day ≤ 30) :
    ∃ g, toCivil host d = .ok g ∧ g.Valid ∧ host g = .ok d ∧
      g.dayNumber = numberOf lengths d := by
  obtain ⟨expected, hexpected, hwindow, hend⟩ := near_of_hasDay h.length hnear hd hle
  have hhost : host (CivilDate.ofOrdinal (numberOf lengths d - civilEpoch)) = .ok d := by
    obtain ⟨hpos, -, hhigh⟩ := hwindow
    refine (h.host_eq _ d (CivilDate.valid_ofOrdinal ⟨hpos, by omega⟩)).2 ⟨hd, ?_⟩
    rw [CivilDate.dayNumber_ofOrdinal, Int.sub_add_cancel]
  obtain ⟨g, hg⟩ := exists_of_search hexpected hend hwindow hhost
  rw [← toCivil_of_inShape (inShape_of_hasDay hd hle)] at hg
  obtain ⟨hgvalid, hghost⟩ := host_of_toCivil hg
  exact ⟨g, hg, hgvalid, hghost, ((h.host_eq g d hgvalid).1 hghost).2⟩

/-- **A triple that is no day is not found**, when the search for it stays among civil dates. -/
theorem toCivil_of_not_hasDay (h : host.Tabulates lengths) (hshape : InShape d)
    (hstays : StaysCivil d) (hd : ¬HasDay lengths d) :
    toCivil host d = .error (.noCivilDay d) := by
  obtain ⟨expected, hexpected, hend⟩ := hstays
  rw [toCivil_of_inShape hshape]
  refine search_eq_error hexpected hend fun n ⟨hpos, hlow, hhigh⟩ hfound => hd ?_
  have hvalid : (CivilDate.ofOrdinal n).Valid := CivilDate.valid_ofOrdinal ⟨hpos, by omega⟩
  exact ((h.host_eq _ d hvalid).1 hfound).1

/-- What is taken for the length of a month. -/
def probedLength (lengths : List Int) (year month : Int) : Except Error Int :=
  match lengthOf? lengths ((year - 1) * 12 + (month - 1)) with
  | some length =>
    if 30 ≤ length then .ok 30
    else if length = 29 then .ok 29 else .error (.noCivilDay ⟨year, month, 29⟩)
  | none => .error (.noCivilDay ⟨year, month, 29⟩)

theorem hasDay_mk {year month day : Int} (hm : 1 ≤ month ∧ month ≤ 12) :
    HasDay lengths ⟨year, month, day⟩ ↔ 1 ≤ day ∧
      ∃ length, lengthOf? lengths ((year - 1) * 12 + (month - 1)) = some length ∧ day ≤ length :=
  and_iff_right hm

/-- A month has thirty days when the thirtieth is found, and else is tried with 29. -/
theorem probeMonth_of_found {year month : Int}
    (h : ∃ g, toCivil host ⟨year, month, 30⟩ = .ok g) : probeMonth host year month = .ok 30 := by
  obtain ⟨g, hg⟩ := h
  rw [probeMonth, hg]

theorem probeMonth_of_missing {year month : Int}
    (h : toCivil host ⟨year, month, 30⟩ = .error (.noCivilDay ⟨year, month, 30⟩)) :
    probeMonth host year month = (toCivil host ⟨year, month, 29⟩).map fun _ => 29 := by
  rw [probeMonth, h]
  exact if_pos rfl

/-- **What is taken for the length of a month**, when the searches for its last days stay among
civil dates: no more than 30 days, and nothing for a month of fewer than 29 days or outside the
tables. -/
theorem probeMonth_eq (h : host.Tabulates lengths) (hnear : StartsNearMean lengths)
    {year month : Int} (hy : 1 ≤ year) (hm : 1 ≤ month ∧ month ≤ 12)
    (hstays : ∀ day, 29 ≤ day → day ≤ 30 → StaysCivil ⟨year, month, day⟩) :
    probeMonth host year month = probedLength lengths year month := by
  have hfound {day : Int} (hday : 29 ≤ day ∧ day ≤ 30) (hd : HasDay lengths ⟨year, month, day⟩) :
      ∃ g, toCivil host ⟨year, month, day⟩ = .ok g := by
    obtain ⟨g, hg, -⟩ := exists_toCivil h hnear hd hday.2
    exact ⟨g, hg⟩
  have hmissing {day : Int} (hday : 29 ≤ day ∧ day ≤ 30)
      (hd : ¬HasDay lengths ⟨year, month, day⟩) :
      toCivil host ⟨year, month, day⟩ = .error (.noCivilDay ⟨year, month, day⟩) :=
    toCivil_of_not_hasDay h ⟨hy, hm, by dsimp only; omega, hday.2⟩ (hstays day hday.1 hday.2) hd
  simp only [hasDay_mk hm] at hfound hmissing
  unfold probedLength
  cases hlength : lengthOf? lengths ((year - 1) * 12 + (month - 1)) with
  | none =>
    simp only [hlength, reduceCtorEq, false_and, exists_false, and_false, not_false_iff,
      forall_const] at hmissing
    rw [probeMonth_of_missing (hmissing (by omega)), hmissing (by omega)]
    rfl
  | some length =>
    simp only [hlength, Option.some.injEq, exists_eq_left'] at hfound hmissing
    dsimp only
    by_cases h30 : 30 ≤ length
    · rw [if_pos h30]
      exact probeMonth_of_found (hfound (by omega) (by omega))
    · rw [if_neg h30, probeMonth_of_missing (hmissing (by omega) (by omega))]
      by_cases h29 : length = 29
      · obtain ⟨g, hg⟩ := @hfound 29 (by omega) (by omega)
        rw [if_pos h29, hg]
        rfl
      · rw [if_neg h29, hmissing (by omega) (by omega)]
        rfl

/-! ### The correspondence -/

theorem toCivil_of_day_gt (hd : HasDay lengths d) (hgt : 30 < d.day) :
    toCivil host d = .error (.dayBeyondMonths (.int d.day)) := by
  obtain ⟨hm, -, length, hlength, -⟩ := hd
  have hlow := (bounds_of_lengthOf? hlength).1
  unfold firstMonth firstYear monthIndex at hlow
  unfold toCivil checkMonth
  rw [if_pos hm, if_neg (show ¬d.year < 1 by omega), if_pos (.inr hgt)]
  rfl

/-- **Days of the tables and civil dates correspond**, for days up to the thirtieth of their month.
The civil date of the day of a date is that date; a thirty-first day is refused.  The day of the
civil date of a day is that day.  Months have the length that the tables give them, but no more than
30 days; one of fewer than 29 days has no length, as one outside the tables has none.  And days are
numbered in their order, those that follow each other by numbers that do. -/
theorem civil_correspondence (h : host.Tabulates lengths) (hnear : StartsNearMean lengths) :
    (∀ (g : CivilDate) (d : LunarDay), g.Valid → (calendar host).ofCivil g = .ok d →
      (calendar host).toCivil d =
        if d.day ≤ 30 then .ok g else .error (.dayBeyondMonths (.int d.day))) ∧
    (∀ d : LunarDay, HasDay lengths d → d.day ≤ 30 →
      ∃ g : CivilDate, g.Valid ∧ (calendar host).toCivil d = .ok g ∧
        (calendar host).ofCivil g = .ok d) ∧
    (∀ year month : Int, 1 ≤ year → 1 ≤ month ∧ month ≤ 12 →
      (∀ day, 29 ≤ day → day ≤ 30 → StaysCivil ⟨year, month, day⟩) →
      ((calendar host).monthLength year month).outcome (answers host) =
        (probedLength lengths year month).map .whole) ∧
    ∀ a b : LunarDay, HasDay lengths a → a.day ≤ 30 → HasDay lengths b → b.day ≤ 30 →
      ∃ m n, (calendar host).dayNumber a = .ok m ∧ (calendar host).dayNumber b = .ok n ∧
        (a < b ↔ m < n) ∧ (Follows lengths a b → n = m + 1) := by
  have hnumber {d : LunarDay} (hd : HasDay lengths d) (hle : d.day ≤ 30) :
      (calendar host).dayNumber d = .ok (numberOf lengths d) := by
    obtain ⟨g, hg, -, -, hn⟩ := exists_toCivil h hnear hd hle
    show (toCivil host d).map CivilDate.dayNumber = _
    rw [hg, ← hn]
    rfl
  refine ⟨fun g d hg hread => ?_, fun d hd hle => ?_, fun year month hy hm hstays => ?_,
    fun a b ha hale hb hble => ?_⟩
  · obtain ⟨hd, hn⟩ := (h.host_eq g d hg).1 (ofCivil_eq_ok.1 hread)
    split
    · rename_i hle
      obtain ⟨found, hfound, hvalid, -, hsame⟩ := exists_toCivil h hnear hd hle
      have heq : found = g := (CivilDate.dayNumber_inj hvalid hg).1 (hsame.trans hn.symm)
      exact hfound.trans (congrArg Except.ok heq)
    · exact toCivil_of_day_gt hd (by omega)
  · obtain ⟨g, hg, hvalid, hhost, -⟩ := exists_toCivil h hnear hd hle
    exact ⟨g, hvalid, hg, ofCivil_eq_ok.2 hhost⟩
  · rw [← probeMonth_eq h hnear hy hm hstays]
    exact outcome_monthLength hm
  · exact ⟨_, _, hnumber ha hale, hnumber hb hble, numberOf_lt_iff h.pos ha hb, numberOf_follows⟩

/-! ### Months of 29 days -/

theorem lengthOf?_eq_some_iff {month length : Int} (hcount : lengths.length = 1896) :
    lengthOf? lengths month = some length ↔
      (firstMonth ≤ month ∧ month < firstMonth + 1896) ∧
        startOf lengths (month + 1) - startOf lengths month = length := by
  constructor
  · intro h
    have hnext := startOf_of_lengthOf? h
    have hbounds := bounds_of_lengthOf? h
    rw [hcount] at hbounds
    exact ⟨hbounds, by omega⟩
  · rintro ⟨⟨hlow, hhigh⟩, rfl⟩
    obtain ⟨count, rfl⟩ := Int.le.dest hlow
    have hlt : count < lengths.length := by omega
    rw [startOf_succ hlt, add_sub_cancel_left, lengthOf?, if_pos hlow,
      show (firstMonth + (count : Int) - firstMonth).toNat = count by omega]
    exact List.getElem?_eq_getElem hlt

/-- All months of the tables with 29 days each. -/
def shortLengths : List Int := List.replicate 1896 29

/-- A host whose months have 29 days each. -/
def shortMonths : Host := fun g =>
  let days := g.dayNumber - firstDayNumber
  if 0 ≤ days ∧ days < 1896 * 29 then
    .ok ⟨firstYear + days / 348, days % 348 / 29 + 1, days % 29 + 1⟩
  else .error g.text

theorem length_shortLengths : shortLengths.length = 1896 := List.length_replicate

theorem startOf_shortLengths {month : Int} (hlow : firstMonth ≤ month)
    (hhigh : month ≤ firstMonth + 1896) :
    startOf shortLengths month = firstDayNumber + (month - firstMonth) * 29 := by
  obtain ⟨count, rfl⟩ := Int.le.dest hlow
  unfold startOf daysBefore shortLengths
  rw [show (firstMonth + (count : Int) - firstMonth).toNat = count by omega, List.take_replicate,
    List.sum_replicate, Nat.min_eq_left (by omega), nsmul_eq_mul, add_sub_cancel_left]

theorem hasDay_shortLengths :
    HasDay shortLengths d ↔ (1 ≤ d.month ∧ d.month ≤ 12) ∧ (1 ≤ d.day ∧ d.day ≤ 29) ∧
      firstMonth ≤ monthIndex d ∧ monthIndex d < firstMonth + 1896 := by
  unfold HasDay
  simp only [lengthOf?_eq_some_iff length_shortLengths]
  constructor
  · rintro ⟨hm, hday, _, ⟨⟨hlow, hhigh⟩, rfl⟩, hlast⟩
    rw [startOf_shortLengths (by omega) (by omega), startOf_shortLengths hlow (by omega)] at hlast
    exact ⟨hm, by omega, hlow, hhigh⟩
  · rintro ⟨hm, hday, hlow, hhigh⟩
    refine ⟨hm, hday.1, _, ⟨⟨hlow, hhigh⟩, rfl⟩, ?_⟩
    rw [startOf_shortLengths (by omega) (by omega), startOf_shortLengths hlow (by omega)]
    omega

theorem shortMonths_tabulates : shortMonths.Tabulates shortLengths where
  length := length_shortLengths
  pos length h := by
    rw [List.eq_of_mem_replicate h]
    decide
  host_eq g d _ := by
    rw [hasDay_shortLengths]
    unfold shortMonths numberOf
    dsimp only
    constructor
    · intro h
      split at h
      · rename_i hdays
        obtain rfl := Except.ok.inj h
        unfold monthIndex firstMonth
        dsimp only
        refine ⟨by omega, ?_⟩
        rw [startOf_shortLengths (by unfold firstMonth; omega) (by unfold firstMonth; omega)]
        unfold firstMonth
        omega
      · cases h
    · rintro ⟨⟨hm, hday, hlow, hhigh⟩, hnumber⟩
      rw [startOf_shortLengths hlow (by omega)] at hnumber
      unfold monthIndex firstMonth at hlow hhigh hnumber
      rw [if_pos (by omega)]
      refine congrArg Except.ok (LunarDay.ext_fields ?_ ?_ ?_) <;> dsimp only <;> omega

/-- Months of 29 days put the last day of all so far before the mean that its search does not come
to it. -/
theorem toCivil_shortMonths_last :
    toCivil shortMonths ⟨1500, 12, 29⟩ = .error (.noCivilDay ⟨1500, 12, 29⟩) := by
  obtain ⟨expected, hexpected, hlow, hhigh⟩ :=
    estimate_spec (d := ⟨1500, 12, 29⟩) (by decide) (by decide) (by decide)
  unfold meanMillionths epochOrdinal at hlow hhigh
  dsimp only at hlow hhigh
  have hend : expected + searchWindow ≤ lastCivilOrdinal := by
    unfold searchWindow lastCivilOrdinal
    omega
  rw [toCivil_of_inShape (by unfold InShape; decide)]
  refine search_eq_error hexpected hend fun n ⟨hpos, hfirst, hn⟩ hfound => ?_
  have hvalid : (CivilDate.ofOrdinal n).Valid :=
    CivilDate.valid_ofOrdinal ⟨hpos, Int.le_trans hn hend⟩
  have hnumber := ((shortMonths_tabulates.host_eq _ _ hvalid).1 hfound).2
  unfold numberOf at hnumber
  rw [CivilDate.dayNumber_ofOrdinal, startOf_shortLengths (by decide) (by decide)] at hnumber
  unfold monthIndex firstMonth firstYear firstDayNumber civilEpoch at hnumber
  unfold searchWindow at hfirst
  dsimp only at hnumber
  omega

/-- **Days that the way back does not find**: the last one of months of 29 days, and of the Umm
al-Qura tables the last one of a month of 31 days. -/
theorem toCivil_lostDays :
    (shortMonths.Tabulates shortLengths ∧ (∀ length ∈ shortLengths, length = 29 ∨ length = 30) ∧
      HasDay shortLengths ⟨1500, 12, 29⟩ ∧
        (calendar shortMonths).toCivil ⟨1500, 12, 29⟩ =
          .error (.noCivilDay ⟨1500, 12, 29⟩)) ∧
    (calendar UmmAlQura.host).ofCivil ⟨1926, 12, 6⟩ = .ok ⟨1345, 5, 31⟩ ∧
      (calendar UmmAlQura.host).toCivil ⟨1345, 5, 31⟩ =
        .error (.dayBeyondMonths (.int 31)) := by
  have hlast : HasDay shortLengths ⟨1500, 12, 29⟩ := hasDay_shortLengths.2 (by decide)
  have hread : ofCivil UmmAlQura.host ⟨1926, 12, 6⟩ = .ok ⟨1345, 5, 31⟩ :=
    ofCivil_eq_ok.2 (host_eq_ok.2 (by decide +kernel))
  exact ⟨⟨shortMonths_tabulates, fun length h => .inl (List.eq_of_mem_replicate h), hlast,
    toCivil_shortMonths_last⟩, hread, rfl⟩

end Observed

namespace UmmAlQura

/-! ### The tables -/

theorem one_le_of_mem_allLengths : ∀ length ∈ allLengths, 1 ≤ length := by
  intro length h
  obtain ⟨row, -, hrow⟩ := List.mem_flatMap.1 h
  obtain ⟨k, -, rfl⟩ := List.mem_map.1 hrow
  omega

/-- The host has the months of the tables. -/
theorem host_tabulates : UmmAlQura.host.Tabulates allLengths where
  length := length_allLengths
  pos := one_le_of_mem_allLengths
  host_eq g d _ := by
    rw [host_eq_ok_iff]
    unfold HasDay
    simp only [lengthOf?_eq_some_iff length_allLengths]
    constructor
    · rintro ⟨hm, hmonth, ⟨hday, hlast⟩, hnumber⟩
      exact ⟨⟨hm, hday, _, ⟨hmonth, rfl⟩, hlast⟩, hnumber⟩
    · rintro ⟨⟨hm, hday, _, ⟨hmonth, rfl⟩, hlast⟩, hnumber⟩
      exact ⟨hm, hmonth, ⟨hday, hlast⟩, hnumber⟩

theorem startsNearMean_allLengths : StartsNearMean allLengths := by
  intro month hlow hhigh
  rw [length_allLengths] at hhigh
  obtain ⟨hearly, hlate⟩ := drift_bounds hlow hhigh
  exact ⟨Int.le_trans (by decide) hearly, Int.le_trans hlate (by decide)⟩

/-- The first day of a Ramadan of 29 days, the length of this month, and the days at its end. -/
theorem civil_correspondence_tables :
    UmmAlQura.host.Tabulates allLengths ∧ StartsNearMean allLengths ∧
    (calendar UmmAlQura.host).toCivil ⟨1446, 9, 1⟩ = .ok ⟨2025, 3, 1⟩ ∧
    (∃ g : CivilDate, g.Valid ∧ (calendar UmmAlQura.host).toCivil ⟨1446, 9, 1⟩ = .ok g ∧
      (calendar UmmAlQura.host).ofCivil g = .ok ⟨1446, 9, 1⟩) ∧
    ((calendar UmmAlQura.host).monthLength 1446 9).outcome (answers UmmAlQura.host) =
      .ok (.whole 29) ∧
    ∃ m n, (calendar UmmAlQura.host).dayNumber ⟨1446, 9, 29⟩ = .ok m ∧
      (calendar UmmAlQura.host).dayNumber ⟨1446, 10, 1⟩ = .ok n ∧ n = m + 1 := by
  obtain ⟨hread, hfind, hlength, hnumbers⟩ :=
    civil_correspondence host_tabulates startsNearMean_allLengths
  have hfirst : ofCivil UmmAlQura.host ⟨2025, 3, 1⟩ = .ok ⟨1446, 9, 1⟩ :=
    ofCivil_eq_ok.2 (host_eq_ok.2 (by decide +kernel))
  refine ⟨host_tabulates, startsNearMean_allLengths,
    hread ⟨2025, 3, 1⟩ ⟨1446, 9, 1⟩ (by decide) hfirst,
    hfind ⟨1446, 9, 1⟩ (by decide +kernel) (by decide), ?_, ?_⟩
  · have hstays (day : Int) (hlow : 29 ≤ day) (hhigh : day ≤ 30) : StaysCivil ⟨1446, 9, day⟩ :=
      staysCivil_of_year ⟨by simp, by simp⟩ ⟨by simp, by simp⟩ ⟨by dsimp only; omega, hhigh⟩
    have hmonth : lengthOf? allLengths ((1446 - 1) * 12 + (9 - 1)) = some 29 := by decide +kernel
    rw [hlength 1446 9 (by decide) (by decide) hstays, probedLength, hmonth]
    rfl
  · obtain ⟨m, n, hm, hn, -, hnext⟩ := hnumbers ⟨1446, 9, 29⟩ ⟨1446, 10, 1⟩ (by decide +kernel)
      (by decide) (by decide +kernel) (by decide)
    exact ⟨m, n, hm, hn, hnext (.inr (by decide +kernel))⟩

end UmmAlQura

end HijriRecurrence
