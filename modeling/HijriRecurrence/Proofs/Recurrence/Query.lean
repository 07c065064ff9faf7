import HijriRecurrence.Proofs.Recurrence.Session
import HijriRecurrence.Proofs.Recurrence.SetDays

/-!
# Queries on rules and sets

The queries on a rule or a set of rules find what its occurrences say: all of them, those that lie
between two dates, the first one after a date, and the last one before one (`queries_find`).  This
holds at any time in the life of the recurrence, whatever its memo has recorded until then, and
whatever its callers have done to the lists that they were given (`Recurrence.Arises`).
-/

namespace HijriRecurrence

open LunarDate Occurrences

variable {ctx : Context} {answers : Answers} {r : Recurrence}

namespace Recurrence

/-- A recurrence as it may be found: made with or without a memo, and put through some history. -/
def Arises (ctx : Context) (answers : Answers) (r : Recurrence) : Prop :=
  ∃ (start : Recurrence) (keepsMemo : Bool) (history : List Event),
    r = (Session.run ctx answers (.start start keepsMemo) history).shared.view

theorem Arises.consistent (h : r.Arises ctx answers) : r.Consistent ctx answers := by
  obtain ⟨start, keepsMemo, history, rfl⟩ := h
  exact (Session.isSound_run (Session.isSound_start ctx answers start keepsMemo) history).consistent

/-- What is given without a memo is given with one. -/
theorem Alike.exists_ok {α : Type} {x : Except Error (α × Recurrence)} {a : α} {s : Recurrence}
    (h : Alike ctx answers x (.ok (a, s))) : ∃ t, x = .ok (a, t) := by
  cases h
  exact ⟨_, rfl⟩

section Find

variable {dates : List LunarDate} (h : r.Arises ctx answers)
  (hyields : Yields answers (r.occurrences ctx) dates)

include h hyields

theorem all_find (hrules : r.hasOnlyDates = true) :
    ∃ s, (r.all ctx none none).outcome answers = .ok (.found { kept := dates }, s) := by
  have hplain : ((r.withMemo none).all ctx none none).outcome answers =
      .ok (.found { kept := dates }, r.withMemo none) := by
    unfold all
    rw [memo_withMemo, occurrences_withMemo]
    dsimp only
    rw [Calculation.outcome_bind_ok hyields.collect]
    rfl
  have halike := alike_all h.consistent hrules none none
  rw [hplain] at halike
  exact halike.exists_ok

variable (hdates : Increasing dates) {first second : Value} {a b : LunarDate}
  (ha : (r.readDate ctx first).outcome answers = .ok a) (inclusive : Value)

include hdates ha

theorem between_find (hb : (r.readDate ctx second).outcome answers = .ok b)
    (hkey : inclusive.isKey = true) :
    ∃ s, (r.between ctx first second inclusive none).outcome answers =
      .ok (.found { kept := lyingBetween inclusive.truthy a b dates }, s) := by
  have hplain : ((r.withMemo none).between ctx first second inclusive none).outcome answers =
      .ok (.found { kept := lyingBetween inclusive.truthy a b dates }, r.withMemo none) := by
    unfold between
    rw [readDate_withMemo, readDate_withMemo, Calculation.outcome_bind_ok ha,
      Calculation.outcome_bind_ok hb]
    unfold betweenDates
    rw [memo_withMemo, occurrences_withMemo]
    dsimp only
    rw [Calculation.outcome_bind_ok (outcome_between hyields hdates a b inclusive.truthy)]
    rfl
  have halike := alike_between h.consistent first second none (.inr fun _ => hkey)
  rw [hplain] at halike
  exact halike.exists_ok

omit hdates in
/-- The first occurrence past a date is found. -/
theorem after_eq_find? (hkey : inclusive.isKey = true) :
    ∃ s, (r.after ctx first inclusive).outcome answers =
      .ok (.found (dates.find? fun d => decide (IsPast inclusive.truthy a d)), s) := by
  have hfound := outcome_firstAfter_find hyields a inclusive.truthy
  rw [isAfter_eq] at hfound
  have hplain : ((r.withMemo none).after ctx first inclusive).outcome answers =
      .ok (.found (dates.find? fun d => decide (IsPast inclusive.truthy a d)),
        r.withMemo none) := by
    unfold after
    rw [readDate_withMemo, memo_withMemo, occurrences_withMemo, Calculation.outcome_bind_ok ha]
    dsimp only
    rw [Calculation.outcome_bind_ok hfound]
    rfl
  have halike := alike_after h.consistent first (.inr hkey)
  rw [hplain] at halike
  exact halike.exists_ok

theorem after_find (hkey : inclusive.isKey = true) :
    ∃ found s, (r.after ctx first inclusive).outcome answers = .ok (.found found, s) ∧
      IsFirstPast inclusive.truthy a dates found := by
  obtain ⟨s, hs⟩ := after_eq_find? h hyields ha inclusive hkey
  exact ⟨_, s, hs, isFirstPast_find? hdates a inclusive.truthy⟩

/-- The last occurrence that a date is past is found. -/
theorem before_eq_getLast? (hkey : inclusive.isKey = true) :
    ∃ s, (r.before ctx first inclusive).outcome answers =
      .ok (.found (dates.filter fun d =>
        decide (IsPast inclusive.truthy d a)).getLast?, s) := by
  have hfound := outcome_lastBefore_getLast? hyields hdates a inclusive.truthy
  have hplain : ((r.withMemo none).before ctx first inclusive).outcome answers =
      .ok (.found (dates.filter fun d =>
        decide (IsPast inclusive.truthy d a)).getLast?, r.withMemo none) := by
    unfold before
    rw [readDate_withMemo, memo_withMemo, occurrences_withMemo, Calculation.outcome_bind_ok ha]
    dsimp only
    rw [Calculation.outcome_bind_ok hfound]
    rfl
  have halike := alike_before h.consistent first (.inr hkey)
  rw [hplain] at halike
  exact halike.exists_ok

theorem before_find (hkey : inclusive.isKey = true) :
    ∃ found s, (r.before ctx first inclusive).outcome answers = .ok (.found found, s) ∧
      IsLastBefore inclusive.truthy a dates found := by
  obtain ⟨s, hs⟩ := before_eq_getLast? h hyields hdates ha inclusive hkey
  exact ⟨_, s, hs, isLastBefore_getLast? hdates a inclusive.truthy⟩

end Find

def firstDayOf (month : Int) : LunarDate := { year := 1446, month, day := 1, variant := .tabular }

/-- The first days of three months, all asked for before and then crossed out by the caller, and
asked for whether the second of them is one. -/
def firstDaysAsked : Recurrence :=
  (Session.run .hostless .unknown (.start (.rule { options := RuleSet.firstDays }) true)
    [.perform (.all none none), .edit 0 fun _ => [],
      .perform (.after (.lunar (firstDayOf 2)) (.bool true))]).shared.view

end Recurrence

end HijriRecurrence
