import HijriRecurrence.Proofs.Recurrence.History
import HijriRecurrence.Proofs.Rule.WithinTable

/-!
# Queries for a number of occurrences

A query for the first `limit` occurrences notices that it has enough of them only when it is at one
more.  So it finds them when the walk has more than `limit` of them, or ends well after them; but
when the walk fails right after the last of them, the query fails with it (`allItems_limit`).  Plain
iteration, which stops at the last one asked for, does not see that failure (`outcome_take`).
-/

namespace HijriRecurrence

namespace Occurrences

variable {α : Type} {answers : Answers}

/-! ### Plain iteration -/

/-- How plain iteration up to a number of occurrences comes out. -/
def haltAt (answers : Answers) (limit : Nat) (walk : Occurrences α) : Halt :=
  if limit ≤ (walk.items answers).length then .more
  else
    match walk.ending answers with
    | none => .over
    | some e => .failure e

theorem outcome_takeOnto (found : List α) (limit : Nat) (walk : Occurrences α) :
    (takeOnto found limit walk).outcome answers =
      .ok (found.reverse ++ (walk.items answers).take limit, haltAt answers limit walk) := by
  induction walk generalizing found limit with
  | done =>
    cases limit with
    | zero => simp [takeOnto, haltAt]
    | succ more => simp [takeOnto, haltAt, items, ending]
  | failed e =>
    cases limit with
    | zero => simp [takeOnto, haltAt]
    | succ more => simp [takeOnto, haltAt, items, ending]
  | item head rest ih =>
    cases limit with
    | zero => simp [takeOnto, haltAt]
    | succ limit =>
      -- the last occurrence asked for ends the walk before anything after it is looked at
      cases limit with
      | zero => simp [takeOnto, haltAt, items]
      | succ more =>
        rw [takeOnto, ih]
        simp [haltAt, items, ending]
  | ask inquiry next ih =>
    cases limit with
    | zero => simp [takeOnto, haltAt]
    | succ more => exact ih (answers inquiry) found (more + 1)

/-- **Plain iteration passes along the first occurrences and fails only before the last of
them.** -/
theorem outcome_take (limit : Nat) (walk : Occurrences α) :
    (walk.take limit).outcome answers =
      .ok ((walk.items answers).take limit, haltAt answers limit walk) :=
  outcome_takeOnto [] limit walk

/-! ### Queries -/

/-- What a query finds that looks for one occurrence more than it keeps. -/
def limited (answers : Answers) (limit : Nat) (walk : Occurrences α) : Scan α where
  kept := (walk.items answers).take limit
  failure := if limit < (walk.items answers).length then none else walk.ending answers

theorem outcome_collectOnto_limit (limit : Nat) (kept : List α) (count : Nat)
    (walk : Occurrences α) :
    (collectOnto (some limit) none kept count walk).outcome answers =
      .ok { kept := kept.reverse ++ (limited answers (limit - count) walk).kept,
            failure := (limited answers (limit - count) walk).failure } := by
  induction walk generalizing kept count with
  | done => simp [collectOnto, limited, items, ending]
  | failed e => simp [collectOnto, limited, items, ending]
  | item head rest ih =>
    unfold collectOnto
    by_cases henough : limit ≤ count
    · rw [if_pos (by simpa [isEnough] using henough), Nat.sub_eq_zero_of_le henough]
      simp [limited, items]
    · rw [if_neg (by simpa [isEnough] using henough), if_neg (by simp [isRefused]), ih]
      obtain ⟨more, hmore⟩ : ∃ more, limit - count = more + 1 := ⟨limit - count - 1, by omega⟩
      rw [hmore, show limit - (count + 1) = more by omega]
      simp [limited, items, ending]
  | ask inquiry next ih => exact ih (answers inquiry) kept count

theorem outcome_collect_limit (limit : Nat) (walk : Occurrences α) :
    (walk.collect (some limit)).outcome answers = .ok (limited answers limit walk) :=
  outcome_collectOnto_limit limit [] 0 walk

theorem limited_map {β : Type} (limit : Nat) (f : α → β) (walk : Occurrences α) :
    limited answers limit (walk.map f) = (limited answers limit walk).map f := by
  simp [limited, Scan.map]

/-- A query finds the occurrences asked for when it has one more to look at, or none at all. -/
theorem result_limited_eq_ok (limit : Nat) (walk : Occurrences α) :
    (limited answers limit walk).result = .ok ((walk.items answers).take limit) ↔
      limit < (walk.items answers).length ∨ walk.ending answers = none := by
  unfold limited Scan.result
  dsimp only
  by_cases hmore : limit < (walk.items answers).length
  · simp [hmore]
  · cases hending : walk.ending answers <;> simp [hmore]

/-- A query fails as the walk does when there are no more occurrences than asked for. -/
theorem result_limited_eq_error {e : Error} (limit : Nat) (walk : Occurrences α) :
    (limited answers limit walk).result = .error e ↔
      (walk.items answers).length ≤ limit ∧ walk.ending answers = some e := by
  unfold limited Scan.result
  dsimp only
  by_cases hmore : limit < (walk.items answers).length
  · simp [hmore]
  · cases hending : walk.ending answers <;> simp [hmore, Nat.le_of_not_lt hmore]

end Occurrences

namespace Recurrence

open Occurrences

variable {ctx : Context} {answers : Answers}

theorem outcome_all_limit (r : Recurrence) (limit : Nat) :
    (r.all ctx (some limit) none).outcome answers =
      .ok (.found (limited answers limit (r.occurrences ctx)), r) := by
  have hcollect := @outcome_collect_limit _ answers limit (r.occurrences ctx)
  unfold all
  cases r.memo with
  | none => exact Calculation.outcome_bind_ok hcollect _
  | some memo => exact Calculation.outcome_bind_ok hcollect _

theorem outcome_allItems_limit (r : Recurrence) (limit : Nat) :
    (r.allItems ctx (some limit) none).outcome answers =
      .ok (limited answers limit (r.itemWalk ctx), r) := by
  unfold allItems
  by_cases hdates : r.hasOnlyDates = true
  · rw [if_pos hdates, itemWalk_of_hasOnlyDates hdates, limited_map, Option.map_none]
    exact Calculation.outcome_bind_ok (outcome_all_limit r limit) _
  · have hcollect := @outcome_collect_limit _ answers limit (r.itemWalk ctx)
    rw [if_neg hdates]
    cases r.memo with
    | none => exact Calculation.outcome_bind_ok hcollect _
    | some memo => exact Calculation.outcome_bind_ok hcollect _

/-- **A query for the first occurrences of a rule or a set finds them exactly when the walk has more
of them or ends well.**  Plain iteration passes along the same ones in any case.  The query fails
when the walk fails before the last occurrence asked for, and also when it fails right after it. -/
theorem allItems_limit (r : Recurrence) (limit : Nat) :
    ∃ scan, (r.allItems ctx (some limit) none).outcome answers = .ok (scan, r) ∧
      (((r.itemWalk ctx).take limit).outcome answers =
        .ok (((r.itemWalk ctx).items answers).take limit, haltAt answers limit (r.itemWalk ctx))) ∧
      (scan.result = .ok (((r.itemWalk ctx).items answers).take limit) ↔
        limit < ((r.itemWalk ctx).items answers).length ∨ (r.itemWalk ctx).ending answers = none) ∧
      ∀ e, scan.result = .error e ↔
        ((r.itemWalk ctx).items answers).length ≤ limit ∧
          (r.itemWalk ctx).ending answers = some e :=
  ⟨_, outcome_allItems_limit r limit, outcome_take limit _, result_limited_eq_ok limit _,
    fun _ => result_limited_eq_error limit _⟩

/-! ### A walk that fails after its first occurrence -/

/-- Every day from the last day of the tables on. -/
def fromLastDay : RuleOptions := { RuleOptions.lastDayOfTables with last := none }

/-- The last day of the tables as an occurrence. -/
def lastDay : LunarDate := { year := 1500, month := 12, day := 30, variant := .ummAlQura }

theorem isDay_lastDay : UmmAlQura.table.IsDay ⟨1500, 12, 30⟩ := by decide +kernel

/-- The day after the last day of the tables is not found. -/
theorem cursor_fromLastDay :
    ∃ e, (fromLastDay.cursor withTables 1).outcome (Observed.answers UmmAlQura.host) =
      .error e := by
  cases hcursor : (fromLastDay.cursor withTables 1).outcome (Observed.answers UmmAlQura.host) with
  | error e => exact ⟨e, rfl⟩
  | ok c =>
    have hbuilt := built_of_isDay_table isDay_lastDay
    have hon := LunarDate.hasOn_of_addDays (d := lastDay) outcome_serve_withTables
      UmmAlQura.host_isOrdered hbuilt.inRange (UmmAlQura.host_keeps.hasOn isDay_lastDay)
      (by decide : (0 : Int) ≤ 1) hcursor
    have hfound : UmmAlQura.host (CivilDate.ofDayNumber
        (UmmAlQura.table.numberOf ⟨1500, 12, 30⟩ + 1)) = .ok c.toLunarDay := hon.2
    have hnone : (UmmAlQura.host (CivilDate.ofDayNumber
        (UmmAlQura.table.numberOf ⟨1500, 12, 30⟩ + 1))).toOption = none := by decide +kernel
    rw [hfound] at hnone
    cases hnone

/-- The walk has the last day of the tables and fails after it. -/
theorem occurrences_fromLastDay :
    (fromLastDay.occurrences withTables).items (Observed.answers UmmAlQura.host) = [lastDay] ∧
      ∃ e, (fromLastDay.occurrences withTables).ending (Observed.answers UmmAlQura.host) =
        some e := by
  obtain ⟨e, hnext⟩ := cursor_fromLastDay
  have hcursor : (fromLastDay.cursor withTables 0).outcome (Observed.answers UmmAlQura.host) =
      .ok lastDay := rfl
  have hdays : (fromLastDay.periodDays withTables (Observed.calendar UmmAlQura.host)
      lastDay).outcome (Observed.answers UmmAlQura.host) = .ok [.ofDay ⟨1500, 12, 30⟩] := rfl
  have hdate : (fromLastDay.dateOn withTables (.ofDay ⟨1500, 12, 30⟩)).outcome
      (Observed.answers UmmAlQura.host) = .ok lastDay := built_of_isDay_table isDay_lastDay
  have hpast : ∀ c, fromLastDay.isPast c = false := fun _ => rfl
  have hchosen : fromLastDay.chosenDays none 0 [.ofDay ⟨1500, 12, 30⟩] =
      [.ofDay ⟨1500, 12, 30⟩] := rfl
  have hends : fromLastDay.endsIn none 0 [.ofDay ⟨1500, 12, 30⟩] = false := by decide
  obtain ⟨more, hlimit⟩ : ∃ more, fromLastDay.periodLimit.toNat = more + 1 + 1 := ⟨99998, rfl⟩
  have hcount : fromLastDay.count ≠ some 0 := by decide
  have hserve : (withTables.serve fromLastDay.variant).outcome
      (Observed.answers UmmAlQura.host) = .ok (Observed.calendar UmmAlQura.host) :=
    outcome_serve_withTables
  refine ⟨?_, e, ?_⟩
  · rw [RuleOptions.occurrences, if_neg hcount, items_after, hserve, hlimit]
    simp only [RuleOptions.walk, yieldAll, items_after, hcursor, hdays, hchosen, hdate, hends,
      hpast, Bool.false_eq_true, if_false, items, Int.zero_add, hnext]
  · rw [RuleOptions.occurrences, if_neg hcount, ending_after, hserve, hlimit]
    simp only [RuleOptions.walk, yieldAll, ending_after, hcursor, hdays, hchosen, hdate, hends,
      hpast, Bool.false_eq_true, if_false, ending, Int.zero_add, hnext]

/-- **A query may fail because of an occurrence that it does not ask for.**  Plain iteration passes
along the first occurrence, and the query for one occurrence fails. -/
theorem allItems_fails_fromLastDay :
    (((rule { options := fromLastDay }).itemWalk withTables).take 1).outcome
        (Observed.answers UmmAlQura.host) = .ok ([.lunar lastDay], .more) ∧
      ∃ scan e, ((rule { options := fromLastDay }).allItems withTables (some 1) none).outcome
          (Observed.answers UmmAlQura.host) = .ok (scan, rule { options := fromLastDay }) ∧
        scan.result = .error e := by
  obtain ⟨hitems, e, hending⟩ := occurrences_fromLastDay
  have hwalk : (rule { options := fromLastDay }).itemWalk withTables =
      (fromLastDay.occurrences withTables).map .lunar := rfl
  constructor
  · rw [outcome_take, haltAt, hwalk, items_map, hitems]
    rfl
  · refine ⟨_, e, outcome_allItems_limit _ 1, (result_limited_eq_error 1 _).2 ?_⟩
    rw [hwalk, items_map, ending_map, hitems]
    exact ⟨Nat.le_refl 1, hending⟩

end Recurrence

end HijriRecurrence
