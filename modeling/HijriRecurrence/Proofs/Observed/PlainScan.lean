import HijriRecurrence.Proofs.Observed.Search

/-!
# Halving and scanning

The search for a civil date halves its window first and scans it afterwards.  Halving trusts that
the days of the host lie in order and without gaps; the scan trusts nothing.  So whatever the host
answers, in any order and with any gaps, the two together come to what a plain scan of the window
alone comes to (`search_eq_plainSearch`), as long as no two dates of the window have one lunar day.

* `window` — the ordinals that are looked at, in order;
* `plainSearch` — the first of them that the host maps to the day;
* `OneToOneIn` — a host has each day on one date of the window at most.
-/

namespace HijriRecurrence

namespace Observed

variable {host : Host} {target : LunarDay} {expected n : Int}

/-! ### The plain scan -/

/-- The ordinals in which a day expected somewhere is looked for, from the first one on. -/
def window (expected : Int) : List Int :=
  (List.range (expected + searchWindow + 1 - max 1 (expected - searchWindow)).toNat).map
    fun (i : Nat) => max 1 (expected - searchWindow) + i

theorem mem_window : n ∈ window expected ↔ InWindow expected n := by
  unfold window InWindow
  rw [List.mem_map]
  constructor
  · rintro ⟨i, hi, rfl⟩
    have hi := List.mem_range.1 hi
    omega
  · intro h
    refine ⟨(n - max 1 (expected - searchWindow)).toNat, List.mem_range.2 ?_, ?_⟩
    · omega
    · omega

/-- Whether the host has a day at an ordinal. -/
def hasAt (host : Host) (target : LunarDay) (n : Int) : Bool :=
  decide ((host (CivilDate.ofOrdinal n)).toOption = some target)

theorem hasAt_iff : hasAt host target n = true ↔ host (CivilDate.ofOrdinal n) = .ok target := by
  unfold hasAt
  rw [decide_eq_true_iff]
  cases host (CivilDate.ofOrdinal n) with
  | ok day => simp [Except.toOption]
  | error reason => simp [Except.toOption]

/-- The civil date of a lunar day by a scan of its window alone: the first one that the host maps to
the day. -/
def plainSearch (host : Host) (target : LunarDay) (expected : Int) : Except Error CivilDate :=
  match (window expected).find? (hasAt host target) with
  | some n => .ok (CivilDate.ofOrdinal n)
  | none => .error (.noCivilDay target)

/-! ### Hosts that have a day once -/

/-- No two dates of a window have one lunar day. -/
def OneToOneIn (host : Host) (expected : Int) : Prop :=
  ∀ m n day, InWindow expected m → InWindow expected n →
    host (CivilDate.ofOrdinal m) = .ok day → host (CivilDate.ofOrdinal n) = .ok day → m = n

section OneToOne

variable (hexpected : estimate target = .ok expected)
  (hwindow : expected + searchWindow ≤ lastCivilOrdinal) (hone : OneToOneIn host expected)

include hexpected hwindow hone

/-- The search finds the one date of the window on which the host has the day. -/
theorem search_of_hasAt (hn : InWindow expected n)
    (hhost : host (CivilDate.ofOrdinal n) = .ok target) :
    search host target = .ok (CivilDate.ofOrdinal n) := by
  obtain ⟨g, hg⟩ := exists_of_search hexpected hwindow hn hhost
  obtain ⟨found, m, hfound, hm, -, rfl, hhost'⟩ := host_of_search hg
  obtain rfl : expected = found := Except.ok.inj (hexpected.symm.trans hfound)
  obtain rfl : m = n := hone m n target hm hn hhost' hhost
  exact hg

/-- **Halving and then scanning comes to what a plain scan comes to.**  The search finds the one
date of the window that the host maps to the day looked for, and it fails, by saying that there is
no such date, exactly where the window has none. -/
theorem search_eq_plainSearch :
    search host target = plainSearch host target expected ∧
    (∀ n, InWindow expected n → host (CivilDate.ofOrdinal n) = .ok target →
      search host target = .ok (CivilDate.ofOrdinal n)) ∧
    (∀ g, search host target = .ok g →
      ∃! n, InWindow expected n ∧ g = CivilDate.ofOrdinal n ∧ host g = .ok target) ∧
    ((∃ e, search host target = .error e ∧ e.kind = .conversionFailure) ↔
      ∀ n, InWindow expected n → host (CivilDate.ofOrdinal n) ≠ .ok target) := by
  have hfind := fun n => search_of_hasAt (n := n) hexpected hwindow hone
  refine ⟨?_, hfind, fun g hg => ?_, ?_⟩
  · unfold plainSearch
    cases hscan : (window expected).find? (hasAt host target) with
    | some n =>
      have hn := mem_window.1 (List.mem_of_find?_eq_some hscan)
      exact hfind n hn (hasAt_iff.1 (List.find?_some hscan))
    | none =>
      refine search_eq_error hexpected hwindow fun n hn hhost => ?_
      exact List.find?_eq_none.1 hscan n (mem_window.2 hn) (hasAt_iff.2 hhost)
  · obtain ⟨found, n, hfound, hn, -, rfl, hhost⟩ := host_of_search hg
    obtain rfl : expected = found := Except.ok.inj (hexpected.symm.trans hfound)
    refine ⟨n, ⟨hn, rfl, hhost⟩, ?_⟩
    rintro m ⟨hm, heq, -⟩
    exact hone m n target hm hn (heq ▸ hhost) hhost
  · constructor
    · rintro ⟨e, he, -⟩ n hn hhost
      rw [hfind n hn hhost] at he
      cases he
    · intro hnone
      exact ⟨_, search_eq_error hexpected hwindow hnone, rfl⟩

end OneToOne

/-- A host that knows two days of the window of 1 Ramadan 1446, the later one first.  It knows
nothing where halving begins, so that halving turns away from the day. -/
def twoDaysSwapped : Host := fun g =>
  if g.ordinal = 739280 then .ok ⟨1446, 10, 1⟩
  else if g.ordinal = 739340 then .ok ⟨1446, 9, 1⟩
  else .error "no such day"

theorem oneToOneIn_twoDaysSwapped (expected : Int) : OneToOneIn twoDaysSwapped expected := by
  intro m n day _ _ hm hn
  unfold twoDaysSwapped CivilDate.ordinal at hm hn
  rw [CivilDate.dayNumber_ofOrdinal] at hm hn
  grind

theorem estimate_firstOfRamadan : estimate ⟨1446, 9, 1⟩ = .ok 739311 := by
  have hvalue : (estimate ⟨1446, 9, 1⟩).toOption = some 739311 := by decide +kernel
  cases hestimate : estimate ⟨1446, 9, 1⟩ with
  | error e => simp [hestimate, Except.toOption] at hvalue
  | ok n => simpa [hestimate, Except.toOption] using hvalue

/-- Halving misses the day and the scan finds it. -/
theorem search_eq_plainSearch_twoDaysSwapped :
    estimate ⟨1446, 9, 1⟩ = .ok 739311 ∧ 739311 + searchWindow ≤ lastCivilOrdinal ∧
    OneToOneIn twoDaysSwapped 739311 ∧
    halve twoDaysSwapped ⟨1446, 9, 1⟩ 739311 739251 739371 = .ok none ∧
    search twoDaysSwapped ⟨1446, 9, 1⟩ = .ok ⟨2025, 3, 30⟩ ∧
    search twoDaysSwapped ⟨1446, 9, 1⟩ = plainSearch twoDaysSwapped ⟨1446, 9, 1⟩ 739311 := by
  have hwindow : 739311 + searchWindow ≤ lastCivilOrdinal := by decide
  have hone := oneToOneIn_twoDaysSwapped 739311
  have hmain := search_eq_plainSearch estimate_firstOfRamadan hwindow hone
  have hday : CivilDate.ofOrdinal 739340 = ⟨2025, 3, 30⟩ := by decide
  have hhost : twoDaysSwapped ⟨2025, 3, 30⟩ = .ok ⟨1446, 9, 1⟩ := rfl
  have hin : InWindow 739311 739340 := ⟨by decide, by decide, by decide⟩
  have hfound := hmain.2.1 739340 hin (hday ▸ hhost)
  exact ⟨estimate_firstOfRamadan, hwindow, hone, by cbv, hday ▸ hfound, hmain.1⟩

end Observed

end HijriRecurrence
