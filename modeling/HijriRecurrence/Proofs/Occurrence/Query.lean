import HijriRecurrence.Occurrence.Query
import HijriRecurrence.Proofs.Lunar.Order
import HijriRecurrence.Proofs.Occurrence.Stream

/-!
# What the queries find

The queries stop as soon as a date lies past a bound.  On dates in strictly increasing order nothing
is lost by that: what lies before a bound is an initial part of the dates (`takeWhile_isBefore`), so
that the dates between two bounds are all those that lie between them (`outcome_between`), the first
date after a bound is the least one after it (`isFirstPast_find?`), and the last date looked at
before a bound is the greatest one before it (`isLastBefore_getLast?`).

`LunarDate.IsPast` says when one date lies past another; it may be the same when the ends count.
-/

namespace HijriRecurrence

namespace LunarDate

/-- A date lies past a bound: it is after the bound, or not before it when the ends count. -/
def IsPast (inclusive : Bool) (bound d : LunarDate) : Prop :=
  if inclusive then bound.toLunarDay ≤ d.toLunarDay else bound.toLunarDay < d.toLunarDay

instance (inclusive : Bool) (bound d : LunarDate) : Decidable (IsPast inclusive bound d) := by
  unfold IsPast
  infer_instance

def Increasing (dates : List LunarDate) : Prop :=
  dates.Pairwise fun a b => a.toLunarDay < b.toLunarDay

variable {inclusive : Bool} {bound d e : LunarDate}

/-- What a date past which a bound lies comes after has the bound past it too. -/
theorem IsPast.of_gt (h : IsPast inclusive d bound) (k : e.toLunarDay < d.toLunarDay) :
    IsPast inclusive e bound := by
  cases inclusive with
  | false => exact LunarDay.lt_trans k h
  | true => exact LunarDay.le_trans (LunarDay.le_of_lt k) h

/-- A date is the first of some dates that lies past a bound, or there is none. -/
def IsFirstPast (inclusive : Bool) (bound : LunarDate) (dates : List LunarDate) :
    Option LunarDate → Prop
  | none => ∀ e ∈ dates, ¬IsPast inclusive bound e
  | some d => d ∈ dates ∧ IsPast inclusive bound d ∧
      ∀ e ∈ dates, IsPast inclusive bound e → d.toLunarDay ≤ e.toLunarDay

/-- A date is the last of some dates past which a bound lies, or there is none. -/
def IsLastBefore (inclusive : Bool) (bound : LunarDate) (dates : List LunarDate) :
    Option LunarDate → Prop
  | none => ∀ e ∈ dates, ¬IsPast inclusive e bound
  | some d => d ∈ dates ∧ IsPast inclusive d bound ∧
      ∀ e ∈ dates, IsPast inclusive e bound → e.toLunarDay ≤ d.toLunarDay

def lyingBetween (inclusive : Bool) (a b : LunarDate) (dates : List LunarDate) :
    List LunarDate :=
  dates.filter fun d => decide (IsPast inclusive a d ∧ IsPast inclusive d b)

end LunarDate

namespace Occurrences

open LunarDate

variable {α : Type} {answers : Answers}

/-! ### Comparisons -/

theorem isAfter_iff {inclusive : Bool} {bound d : LunarDate} :
    isAfter inclusive bound d = true ↔ IsPast inclusive bound d := by
  cases inclusive with
  | false => simp [isAfter, IsPast]
  | true =>
    simp only [isAfter, IsPast, Bool.true_and, Bool.or_eq_true, decide_eq_true_eq, if_true]
    constructor
    · rintro (hlt | heq)
      · exact LunarDay.le_of_lt hlt
      · exact heq ▸ LunarDay.le_refl _
    · intro hle
      exact (LunarDay.lt_or_eq_of_le hle).imp_right Eq.symm

theorem isBefore_iff {inclusive : Bool} {bound d : LunarDate} :
    isBefore inclusive bound d = true ↔ IsPast inclusive d bound := by
  cases inclusive with
  | false => simp [isBefore, IsPast]
  | true =>
    simp only [isBefore, IsPast, Bool.true_and, Bool.or_eq_true, decide_eq_true_eq, if_true]
    constructor
    · rintro (hlt | heq)
      · exact LunarDay.le_of_lt hlt
      · exact heq ▸ LunarDay.le_refl _
    · intro hle
      exact LunarDay.lt_or_eq_of_le hle

theorem isAfter_eq (inclusive : Bool) (bound : LunarDate) :
    isAfter inclusive bound = fun d => decide (IsPast inclusive bound d) :=
  funext fun _ => Bool.eq_iff_iff.2 (isAfter_iff.trans decide_eq_true_iff.symm)

/-! ### What the walks come to -/

/-- All occurrences of a walk are found, and the failure that it ends in. -/
theorem outcome_collectOnto (kept : List α) (count : Nat) (walk : Occurrences α) :
    (collectOnto none none kept count walk).outcome answers =
      .ok { kept := kept.reverse ++ walk.items answers, failure := walk.ending answers } := by
  induction walk generalizing kept count with
  | done => simp [collectOnto, items, ending]
  | failed e => simp [collectOnto, items, ending]
  | item head rest ih =>
    rw [collectOnto, isEnough, isRefused, if_neg Bool.false_ne_true, if_neg Bool.false_ne_true, ih]
    simp [items, ending]
  | ask inquiry next ih => exact ih (answers inquiry) kept count

theorem outcome_collect (walk : Occurrences α) :
    walk.collect.outcome answers =
      .ok { kept := walk.items answers, failure := walk.ending answers } :=
  outcome_collectOnto [] 0 walk

theorem Yields.collect {walk : Occurrences α} {list : List α} (h : Yields answers walk list) :
    walk.collect.outcome answers = .ok { kept := list } := by
  rw [outcome_collect, h.ending, h.items]

/-- A walk on which nothing fails yields what is found on it. -/
theorem yields_of_collect {walk : Occurrences α} {scan : Scan α}
    (h : walk.collect.outcome answers = .ok scan) (hfailure : scan.failure = none) :
    Yields answers walk scan.kept := by
  rw [outcome_collect] at h
  obtain rfl := Except.ok.inj h
  exact ⟨hfailure, rfl⟩

/-- Between two bounds those occurrences are found that lie after the first one, up to the first
occurrence that does not lie before the second one. -/
theorem outcome_betweenOnto {a b : LunarDate} {inclusive : Bool} {walk : Occurrences LunarDate}
    {dates : List LunarDate} (h : Yields answers walk dates) (kept : List LunarDate)
    (count : Nat) :
    (betweenOnto a b inclusive none kept count walk).outcome answers =
      .ok { kept := kept.reverse ++
              (dates.takeWhile (isBefore inclusive b)).filter (isAfter inclusive a) } := by
  induction walk generalizing dates kept count with
  | done =>
    obtain rfl := yields_done_iff.1 h
    simp [betweenOnto]
  | failed e => exact absurd h (not_yields_failed e)
  | item head rest ih =>
    obtain ⟨later, rfl, hlater⟩ := yields_item_iff.1 h
    rw [betweenOnto, isRefused, if_neg Bool.false_ne_true]
    cases hbefore : isBefore inclusive b head with
    | false => simp [hbefore]
    | true =>
      rw [List.takeWhile_cons_of_pos hbefore, if_neg (by simp)]
      cases hafter : isAfter inclusive a head with
      | false =>
        rw [if_neg Bool.false_ne_true, ih () hlater, List.filter_cons_of_neg (by simp [hafter])]
      | true =>
        rw [if_pos rfl, ih () hlater, List.filter_cons_of_pos hafter]
        simp
  | ask inquiry next ih => exact ih (answers inquiry) (yields_ask_iff.1 h) kept count

/-- The first occurrence that lies after a bound is found. -/
theorem outcome_firstAfter_find {walk : Occurrences LunarDate} {dates : List LunarDate}
    (h : Yields answers walk dates) (bound : LunarDate) (inclusive : Bool) :
    (walk.firstAfter bound inclusive).outcome answers =
      .ok (dates.find? (isAfter inclusive bound)) := by
  induction walk generalizing dates with
  | done =>
    obtain rfl := yields_done_iff.1 h
    rfl
  | failed e => exact absurd h (not_yields_failed e)
  | item head rest ih =>
    obtain ⟨later, rfl, hlater⟩ := yields_item_iff.1 h
    rw [firstAfter, List.find?_cons]
    cases isAfter inclusive bound head with
    | false => exact ih () hlater
    | true => rfl
  | ask inquiry next ih => exact ih (answers inquiry) (yields_ask_iff.1 h)

/-- The last occurrence before the first one that does not lie before a bound is found, or else what
was found already. -/
theorem outcome_lastBeforeFrom {bound : LunarDate} {inclusive : Bool}
    {walk : Occurrences LunarDate} {dates : List LunarDate} (h : Yields answers walk dates)
    (found : Option LunarDate) :
    (lastBeforeFrom bound inclusive found walk).outcome answers =
      .ok ((dates.takeWhile (isBefore inclusive bound)).getLast?.or found) := by
  induction walk generalizing dates found with
  | done =>
    obtain rfl := yields_done_iff.1 h
    rfl
  | failed e => exact absurd h (not_yields_failed e)
  | item head rest ih =>
    obtain ⟨later, rfl, hlater⟩ := yields_item_iff.1 h
    rw [lastBeforeFrom, List.takeWhile_cons]
    cases isBefore inclusive bound head with
    | false => rfl
    | true =>
      rw [if_pos rfl, if_pos rfl, ih () hlater, List.getLast?_cons, Option.some_or,
        Option.or_some]
  | ask inquiry next ih => exact ih (answers inquiry) (yields_ask_iff.1 h) found

/-! ### Dates in increasing order -/

/-- In increasing order the dates before a bound come first. -/
theorem takeWhile_isBefore {dates : List LunarDate} (h : Increasing dates) (inclusive : Bool)
    (bound : LunarDate) :
    dates.takeWhile (isBefore inclusive bound) =
      dates.filter fun d => decide (IsPast inclusive d bound) := by
  induction dates with
  | nil => rfl
  | cons d rest ih =>
    obtain ⟨hlater, hrest⟩ := List.pairwise_cons.1 h
    by_cases hd : IsPast inclusive d bound
    · rw [List.takeWhile_cons_of_pos (isBefore_iff.2 hd), List.filter_cons_of_pos (by simpa),
        ih hrest]
    · have hnone : ∀ e ∈ rest, ¬IsPast inclusive e bound := by
        intro e he hpast
        exact hd (hpast.of_gt (hlater e he))
      rw [List.takeWhile_cons_of_neg (mt isBefore_iff.1 hd), List.filter_cons_of_neg (by simpa)]
      symm
      simpa using hnone

/-- **Between two bounds all occurrences are found that lie between them.** -/
theorem outcome_between {walk : Occurrences LunarDate} {dates : List LunarDate}
    (h : Yields answers walk dates) (hdates : Increasing dates) (a b : LunarDate)
    (inclusive : Bool) :
    (walk.between a b inclusive).outcome answers =
      .ok { kept := lyingBetween inclusive a b dates } := by
  have hsame : (dates.takeWhile (isBefore inclusive b)).filter (isAfter inclusive a) =
      lyingBetween inclusive a b dates := by
    rw [takeWhile_isBefore hdates, List.filter_filter, isAfter_eq]
    apply List.filter_congr
    intro d _
    exact (Bool.decide_and _ _).symm
  rw [between, outcome_betweenOnto h, hsame]
  rfl

/-- In increasing order the first date past a bound is the least one past it. -/
theorem isFirstPast_find? {dates : List LunarDate} (hdates : Increasing dates) (bound : LunarDate)
    (inclusive : Bool) :
    IsFirstPast inclusive bound dates (dates.find? fun d => decide (IsPast inclusive bound d)) := by
  cases hfind : dates.find? fun d => decide (IsPast inclusive bound d) with
  | none =>
    intro e he hpast
    exact List.find?_eq_none.1 hfind e he (decide_eq_true hpast)
  | some d =>
    obtain ⟨hd, before, later, rfl, hbefore⟩ := List.find?_eq_some_iff_append.1 hfind
    refine ⟨by simp, of_decide_eq_true hd, fun e he hpast => ?_⟩
    rcases List.mem_append.1 he with hmem | hmem
    · have hnot := hbefore e hmem
      rw [decide_eq_true hpast] at hnot
      cases hnot
    · rcases List.mem_cons.1 hmem with rfl | hmem
      · exact LunarDay.le_refl _
      · have hrest := List.pairwise_cons.1 (List.pairwise_append.1 hdates).2.1
        exact LunarDay.le_of_lt (hrest.1 e hmem)

/-- In increasing order the last date before a bound is the greatest one before it. -/
theorem isLastBefore_getLast? {dates : List LunarDate} (hdates : Increasing dates)
    (bound : LunarDate) (inclusive : Bool) :
    IsLastBefore inclusive bound dates
      (dates.filter fun d => decide (IsPast inclusive d bound)).getLast? := by
  have horder : Increasing (dates.filter fun d => decide (IsPast inclusive d bound)) :=
    hdates.sublist List.filter_sublist
  have hmem : ∀ e, e ∈ (dates.filter fun d => decide (IsPast inclusive d bound)) ↔
      e ∈ dates ∧ IsPast inclusive e bound := by
    intro e
    rw [List.mem_filter, decide_eq_true_eq]
  generalize (dates.filter fun d => decide (IsPast inclusive d bound)) = before at horder hmem
  cases hlast : before.getLast? with
  | none =>
    obtain rfl := List.getLast?_eq_none_iff.1 hlast
    intro e he hpast
    exact List.not_mem_nil ((hmem e).2 ⟨he, hpast⟩)
  | some d =>
    obtain ⟨initial, rfl⟩ := List.getLast?_eq_some_iff.1 hlast
    obtain ⟨hd, hpast⟩ := (hmem d).1 (by simp)
    refine ⟨hd, hpast, fun e he hpast' => ?_⟩
    rcases List.mem_append.1 ((hmem e).2 ⟨he, hpast'⟩) with hinitial | heq
    · have hlt := (List.pairwise_append.1 horder).2.2 e hinitial d List.mem_cons_self
      exact LunarDay.le_of_lt hlt
    · rw [List.mem_singleton.1 heq]
      exact LunarDay.le_refl _

theorem outcome_lastBefore_getLast? {walk : Occurrences LunarDate} {dates : List LunarDate}
    (h : Yields answers walk dates) (hdates : Increasing dates) (bound : LunarDate)
    (inclusive : Bool) :
    (walk.lastBefore bound inclusive).outcome answers =
      .ok (dates.filter fun d => decide (IsPast inclusive d bound)).getLast? := by
  rw [lastBefore, outcome_lastBeforeFrom h none, Option.or_none, takeWhile_isBefore hdates]

end Occurrences

end HijriRecurrence
