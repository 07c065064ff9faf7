import HijriRecurrence.Calendar.Observed
import HijriRecurrence.Proofs.Civil.DayNumber
import HijriRecurrence.Proofs.Outcome

/-!
# The search for a civil date

The observed calendar looks for the civil date of a lunar day in a window of ordinals, by halving
and, where that was led astray, one by one.  Nothing has to be assumed of the host for the search to
be right:

* `host_of_search` — what is found is a date of the window that the host maps to the day;
* `exists_of_search` — a day that the host has in the window is found;
* `search_eq_error` — where the window has no such date, the search says so.

The search fails in another way only where there are no civil dates any more.
-/

namespace HijriRecurrence

namespace Observed

variable {host : Host} {target : LunarDay} {expected low high first ordinal : Int} {count : Nat}

/-! ### One look at the host -/

theorem probe_eq_ok {found : Option LunarDay} (h : probe host ordinal = .ok found) :
    ordinal ≤ lastCivilOrdinal := by
  unfold probe at h
  split at h
  · cases h
  · omega

/-- A look finds the day that the host has there. -/
theorem probe_eq_some :
    probe host ordinal = .ok (some target) ↔
      ordinal ≤ lastCivilOrdinal ∧ host (CivilDate.ofOrdinal ordinal) = .ok target := by
  constructor
  · intro h
    have hle := probe_eq_ok h
    refine ⟨hle, ?_⟩
    rw [probe, if_neg (by omega)] at h
    cases hday : host (CivilDate.ofOrdinal ordinal) with
    | ok day =>
      rw [hday] at h
      obtain rfl := Option.some.inj (Except.ok.inj h)
      rfl
    | error reason =>
      rw [hday] at h
      cases h
  · rintro ⟨hle, hday⟩
    rw [probe, if_neg (by omega), hday]

theorem exists_probe (h : ordinal ≤ lastCivilOrdinal) : ∃ found, probe host ordinal = .ok found := by
  rw [probe, if_neg (by omega)]
  cases host (CivilDate.ofOrdinal ordinal) with
  | ok day => exact ⟨some day, rfl⟩
  | error reason => exact ⟨none, rfl⟩

/-- A look fails only where there are no civil dates any more. -/
theorem probe_eq_error {e : Error} (h : probe host ordinal = .error e) :
    lastCivilOrdinal < ordinal ∧ e = .civilBeyondEnd ordinal := by
  unfold probe at h
  split at h
  · rename_i hbeyond
    exact ⟨hbeyond, (Except.error.inj h).symm⟩
  · split at h <;> cases h

/-! ### The two phases -/

/-- Halving finds nothing but the target, and within its bounds. -/
theorem probe_of_halve (h : halve host target expected low high = .ok (some ordinal)) :
    low ≤ ordinal ∧ ordinal ≤ high ∧ probe host ordinal = .ok (some target) := by
  fun_induction halve host target expected low high with
  | case1 low high hle mid e hprobe => cases h
  | case2 low high hle mid hprobe =>
    obtain rfl := Option.some.inj (Except.ok.inj h)
    exact ⟨by omega, by omega, hprobe⟩
  | case3 low high hle mid found hprobe hne early hearly ih =>
    obtain ⟨hlow, hhigh, hfound⟩ := ih h
    exact ⟨by omega, hhigh, hfound⟩
  | case4 low high hle mid found hprobe hne early hlate ih =>
    obtain ⟨hlow, hhigh, hfound⟩ := ih h
    exact ⟨hlow, by omega, hfound⟩
  | case5 low high hgt => cases h

/-- Halving ends well where there are civil dates. -/
theorem exists_halve (hhigh : high ≤ lastCivilOrdinal) :
    ∃ found, halve host target expected low high = .ok found := by
  fun_induction halve host target expected low high with
  | case1 low high hle mid e hprobe =>
    obtain ⟨found, hfound⟩ : ∃ found, probe host mid = .ok found := exists_probe (by omega)
    rw [hfound] at hprobe
    cases hprobe
  | case2 low high hle mid hprobe => exact ⟨some mid, rfl⟩
  | case3 low high hle mid found hprobe hne early hearly ih => exact ih hhigh
  | case4 low high hle mid found hprobe hne early hlate ih => exact ih (by omega)
  | case5 low high hgt => exact ⟨none, rfl⟩

/-- Halving fails only by a look that fails. -/
theorem probe_eq_error_of_halve {e : Error}
    (h : halve host target expected low high = .error e) :
    ∃ n, n ≤ high ∧ probe host n = .error e := by
  fun_induction halve host target expected low high with
  | case1 low high hle mid e' hprobe =>
    obtain rfl := Except.error.inj h
    exact ⟨mid, by omega, hprobe⟩
  | case2 low high hle mid hprobe => cases h
  | case3 low high hle mid found hprobe hne early hearly ih => exact ih h
  | case4 low high hle mid found hprobe hne early hlate ih =>
    obtain ⟨n, hn, hfail⟩ := ih h
    exact ⟨n, by omega, hfail⟩
  | case5 low high hgt => cases h

theorem probe_eq_error_of_scan {e : Error} (h : scan host target first count = .error e) :
    ∃ n, n < first + count ∧ probe host n = .error e := by
  induction count generalizing first with
  | zero => cases h
  | succ count ih =>
    rw [scan] at h
    cases hprobe : probe host first with
    | error e' =>
      rw [hprobe] at h
      obtain rfl := Except.error.inj h
      exact ⟨first, by omega, hprobe⟩
    | ok found =>
      rw [hprobe] at h
      dsimp only at h
      split at h
      next => cases h
      next =>
        obtain ⟨n, hn, hfail⟩ := ih h
        exact ⟨n, by omega, hfail⟩

theorem probe_of_scan (h : scan host target first count = .ok (some ordinal)) :
    first ≤ ordinal ∧ ordinal < first + count ∧ probe host ordinal = .ok (some target) := by
  induction count generalizing first with
  | zero => cases h
  | succ count ih =>
    rw [scan] at h
    cases hprobe : probe host first with
    | error e =>
      rw [hprobe] at h
      cases h
    | ok found =>
      rw [hprobe] at h
      dsimp only at h
      split at h
      next hfound =>
        obtain rfl := Option.some.inj (Except.ok.inj h)
        exact ⟨Int.le_refl _, by omega, hprobe.trans (congrArg _ hfound)⟩
      next hne =>
        obtain ⟨hlow, hhigh, hfound⟩ := ih h
        exact ⟨by omega, by omega, hfound⟩

/-- One by one the target is found wherever it is, or else nothing. -/
theorem exists_scan (hend : first + count ≤ lastCivilOrdinal + 1) :
    ∃ found, scan host target first count = .ok found ∧
      (found = none → ∀ n, first ≤ n → n < first + count →
        probe host n ≠ .ok (some target)) := by
  induction count generalizing first with
  | zero =>
    refine ⟨none, rfl, fun _ n hlow hhigh => ?_⟩
    omega
  | succ count ih =>
    obtain ⟨found, hprobe⟩ : ∃ found, probe host first = .ok found := exists_probe (by omega)
    by_cases hfound : found = some target
    · refine ⟨some first, ?_, fun hnone => by cases hnone⟩
      rw [scan, hprobe]
      exact if_pos hfound
    · have hrest : first + 1 + count ≤ lastCivilOrdinal + 1 := by omega
      obtain ⟨later, hlater, hnone⟩ := ih hrest
      refine ⟨later, ?_, fun hnothing n hlow hhigh => ?_⟩
      · rw [scan, hprobe]
        exact (if_neg hfound).trans hlater
      · rcases Int.lt_or_eq_of_le hlow with hlt | rfl
        · exact hnone hnothing n (by omega) (by omega)
        · rw [hprobe]
          exact fun heq => hfound (Except.ok.inj heq)

/-! ### The search -/

/-- The ordinals in which a day expected somewhere is looked for. -/
def InWindow (expected ordinal : Int) : Prop :=
  1 ≤ ordinal ∧ expected - searchWindow ≤ ordinal ∧ ordinal ≤ expected + searchWindow

/-- **What a search finds is in the window, and the host maps it to the day looked for.** -/
theorem host_of_search {g : CivilDate} (h : search host target = .ok g) :
    ∃ expected ordinal, estimate target = .ok expected ∧ InWindow expected ordinal ∧
      ordinal ≤ lastCivilOrdinal ∧ g = CivilDate.ofOrdinal ordinal ∧ host g = .ok target := by
  obtain ⟨expected, hexpected, h⟩ := Calculation.except_bind_eq_ok.1 h
  obtain ⟨halved, hhalved, h⟩ := Calculation.except_bind_eq_ok.1 h
  refine ⟨expected, ?_⟩
  cases halved with
  | some ordinal =>
    obtain rfl := Except.ok.inj h
    obtain ⟨hlow, hhigh, hprobe⟩ := probe_of_halve hhalved
    obtain ⟨hle, hhost⟩ := probe_eq_some.1 hprobe
    exact ⟨ordinal, hexpected, ⟨by omega, by omega, hhigh⟩, hle, rfl, hhost⟩
  | none =>
    obtain ⟨scanned, hscanned, h⟩ := Calculation.except_bind_eq_ok.1 h
    cases scanned with
    | some ordinal =>
      obtain rfl := Except.ok.inj h
      obtain ⟨hlow, hhigh, hprobe⟩ := probe_of_scan hscanned
      obtain ⟨hle, hhost⟩ := probe_eq_some.1 hprobe
      exact ⟨ordinal, hexpected, ⟨by omega, by omega, by omega⟩, hle, rfl, hhost⟩
    | none => cases h

/-- A search in a window of civil dates finds something, or says that there is nothing. -/
theorem search_cases (hexpected : estimate target = .ok expected)
    (hwindow : expected + searchWindow ≤ lastCivilOrdinal) :
    (∃ g, search host target = .ok g) ∨
      search host target = .error (.noCivilDay target) ∧
        ∀ n, InWindow expected n → host (CivilDate.ofOrdinal n) ≠ .ok target := by
  obtain ⟨halved, hhalved⟩ : ∃ found, halve host target expected (max 1 (expected - searchWindow))
      (expected + searchWindow) = .ok found := exists_halve hwindow
  unfold search
  rw [hexpected]
  simp only [bind, Except.bind, hhalved]
  cases halved with
  | some ordinal => exact Or.inl ⟨_, rfl⟩
  | none =>
    have hend : max 1 (expected - searchWindow) +
        (expected + searchWindow + 1 - max 1 (expected - searchWindow)).toNat ≤
          lastCivilOrdinal + 1 := by
      unfold lastCivilOrdinal searchWindow at *
      omega
    obtain ⟨scanned, hscanned, hnone⟩ := @exists_scan host target _ _ hend
    simp only [hscanned]
    cases scanned with
    | some ordinal => exact Or.inl ⟨_, rfl⟩
    | none =>
      refine Or.inr ⟨rfl, fun n hn hhost => ?_⟩
      obtain ⟨hpos, hlow, hhigh⟩ := hn
      exact hnone rfl n (by omega) (by omega) (probe_eq_some.2 ⟨by omega, hhost⟩)

/-- **A day that the host has in the window is found.** -/
theorem exists_of_search (hexpected : estimate target = .ok expected)
    (hwindow : expected + searchWindow ≤ lastCivilOrdinal) (hn : InWindow expected ordinal)
    (hhost : host (CivilDate.ofOrdinal ordinal) = .ok target) :
    ∃ g, search host target = .ok g := by
  rcases @search_cases host _ _ hexpected hwindow with hfound | ⟨-, hnone⟩
  · exact hfound
  · exact absurd hhost (hnone ordinal hn)

/-- **Where the window has no date for a day, the search says so.** -/
theorem search_eq_error (hexpected : estimate target = .ok expected)
    (hwindow : expected + searchWindow ≤ lastCivilOrdinal)
    (hnone : ∀ n, InWindow expected n → host (CivilDate.ofOrdinal n) ≠ .ok target) :
    search host target = .error (.noCivilDay target) := by
  rcases @search_cases host _ _ hexpected hwindow with ⟨g, hg⟩ | ⟨herror, -⟩
  · obtain ⟨found, n, hfound, hn, -, rfl, hhost⟩ := host_of_search hg
    obtain rfl : expected = found := Except.ok.inj (hexpected.symm.trans hfound)
    exact absurd hhost (hnone n hn)
  · exact herror

/-- **A search fails when it finds nothing, or where its window goes beyond the last civil
date.** -/
theorem error_of_search (hexpected : estimate target = .ok expected) {e : Error}
    (h : search host target = .error e) :
    e = .noCivilDay target ∨
      ∃ n, lastCivilOrdinal < n ∧ n ≤ expected + searchWindow ∧ e = .civilBeyondEnd n := by
  have hbeyond {n : Int} (hn : n ≤ expected + searchWindow) (hprobe : probe host n = .error e) :
      ∃ n, lastCivilOrdinal < n ∧ n ≤ expected + searchWindow ∧ e = .civilBeyondEnd n := by
    obtain ⟨hend, he⟩ := probe_eq_error hprobe
    exact ⟨n, hend, hn, he⟩
  unfold search at h
  rw [hexpected] at h
  simp only [bind, Except.bind] at h
  cases hhalved : halve host target expected (max 1 (expected - searchWindow))
      (expected + searchWindow) with
  | error e' =>
    rw [hhalved] at h
    obtain rfl := Except.error.inj h
    obtain ⟨n, hn, hprobe⟩ := probe_eq_error_of_halve hhalved
    exact .inr (hbeyond hn hprobe)
  | ok halved =>
    rw [hhalved] at h
    cases halved with
    | some ordinal => cases h
    | none =>
      dsimp only at h
      cases hscanned : scan host target (max 1 (expected - searchWindow))
          (expected + searchWindow + 1 - max 1 (expected - searchWindow)).toNat with
      | error e' =>
        rw [hscanned] at h
        obtain rfl := Except.error.inj h
        obtain ⟨n, hn, hprobe⟩ := probe_eq_error_of_scan hscanned
        have hcount : 0 < (expected + searchWindow + 1 - max 1 (expected - searchWindow)).toNat := by
          refine Nat.pos_of_ne_zero fun hzero => ?_
          rw [hzero] at hscanned
          cases hscanned
        exact .inr (hbeyond (by omega) hprobe)
      | ok scanned =>
        rw [hscanned] at h
        cases scanned with
        | some ordinal => cases h
        | none => exact .inl (Except.error.inj h).symm

/-! ### The civil date of a day -/

theorem ofCivil_eq_ok {g : CivilDate} : ofCivil host g = .ok target ↔ host g = .ok target := by
  unfold ofCivil
  cases host g <;> simp

/-- What the calendar asks of a triple before it searches. -/
def InShape (d : LunarDay) : Prop :=
  1 ≤ d.year ∧ (1 ≤ d.month ∧ d.month ≤ 12) ∧ 1 ≤ d.day ∧ d.day ≤ 30

theorem toCivil_of_inShape (h : InShape target) : toCivil host target = search host target := by
  obtain ⟨hy, hm, hd, hd'⟩ := h
  have hnotDay : ¬(target.day < 1 ∨ 30 < target.day) := by omega
  simp [toCivil, checkMonth, hm, hnotDay, show ¬target.year < 1 by omega, bind, Except.bind]

/-- A civil date is found only by a search. -/
theorem search_of_toCivil {g : CivilDate} (h : toCivil host target = .ok g) :
    InShape target ∧ search host target = .ok g := by
  by_cases hshape : InShape target
  · exact ⟨hshape, (toCivil_of_inShape hshape).symm.trans h⟩
  · exfalso
    unfold toCivil checkMonth at h
    by_cases hm : 1 ≤ target.month ∧ target.month ≤ 12
    · rw [if_pos hm] at h
      by_cases hy : target.year < 1
      · rw [if_pos hy] at h
        cases h
      · by_cases hd : target.day < 1 ∨ 30 < target.day
        · rw [if_neg hy, if_pos hd] at h
          cases h
        · exact hshape ⟨by omega, hm, by omega, by omega⟩
    · rw [if_neg hm] at h
      cases h

/-- **A civil date that is found exists, and the host maps it to the day.** -/
theorem host_of_toCivil {g : CivilDate} (h : toCivil host target = .ok g) :
    g.Valid ∧ host g = .ok target := by
  obtain ⟨-, hsearch⟩ := search_of_toCivil h
  obtain ⟨expected, n, -, ⟨hpos, -⟩, hle, rfl, hhost⟩ := host_of_search hsearch
  exact ⟨CivilDate.valid_ofOrdinal ⟨hpos, hle⟩, hhost⟩

/-- The length of a month from 1 to 12 is what a search for its last days says. -/
theorem outcome_monthLength {year month : Int} (hm : 1 ≤ month ∧ month ≤ 12) :
    (monthLength year month).outcome (answers host) = (probeMonth host year month).map .whole := by
  have hcheck : checkMonth month = .ok () := if_pos hm
  rw [monthLength, Calculation.outcome_bind_ok ((Calculation.outcome_liftM _).trans hcheck),
    Calculation.outcome_ask, Calculation.outcome_ofExcept, answers]

end Observed

end HijriRecurrence
