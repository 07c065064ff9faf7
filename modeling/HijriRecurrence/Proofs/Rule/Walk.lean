import HijriRecurrence.Proofs.Occurrence.Stream
import HijriRecurrence.Proofs.Rule.Periods
import HijriRecurrence.Rule.Occurrences

/-!
# The walk of a rule

A rule is walked period by period, with three early ways out: a period that starts after the last
date, a day after the last date, and the count.  What the walk passes along is nevertheless simple
to say.  Take the days that any period within the limit proposes, keep those from the first date on
and up to the last, put them into increasing order, and cut them to the count.

That much is true in any calendar whose periods are known (`KnownPeriods`): each comes to days that
exist, and the days of different periods stand in the order of the periods.

* `walk_yields_outside`, `walk_yields_within` — one step of the walk, as lists of days;
* `exists_declared_of_past`, `exists_declared_of_reached`, `exists_declared_of_next` — the ways in
  which a step is left, each with what its period and the later ones declare;
* `walk_yields` — the walk over any number of known periods, by induction; it rests on periods
  following each other, so that whatever comes later is not before what was taken;
* `knownPeriods` — all periods of a rule of the tabular calendar are known.
-/

namespace HijriRecurrence.RuleOptions

open Tabular

variable {ctx : Context} {answers : Answers} {o : RuleOptions}

/-! ### Days that may be taken -/

/-- Whether a day is up to the last date of a rule. -/
def isWithin (o : RuleOptions) (d : LunarDay) : Bool :=
  o.last.all fun last => decide (d ≤ last.toLunarDay)

/-- Whether a day is from the first date on, and after the day taken before. -/
def isNew (o : RuleOptions) (taken : Option LunarDay) (d : LunarDay) : Bool :=
  decide (o.start.toLunarDay ≤ d) && taken.all fun previous => decide (previous < d)

/-- The days of a list that may be taken. -/
def newDays (o : RuleOptions) (taken : Option LunarDay) (days : List LunarDay) : List LunarDay :=
  days.filter fun d => o.isWithin d && o.isNew taken d

/-- The first days of a list, up to the count of a rule, when some number came before. -/
def cutAfter (o : RuleOptions) (emitted : Nat) (days : List LunarDay) : List LunarDay :=
  match o.count with
  | none => days
  | some count => days.take (count - emitted).toNat

/-- The occurrence on a day: with the time of day of the first date, in the rule's calendar. -/
def occurrenceOn (o : RuleOptions) (d : LunarDay) : LunarDate :=
  { d with
    hour := o.start.hour, minute := o.start.minute, second := o.start.second,
    variant := o.variant }

@[simp] theorem isPast_ofDay (d : LunarDay) : o.isPast (.ofDay d) = !o.isWithin d := by
  unfold isPast isWithin
  cases o.last with
  | none => rfl
  | some last =>
    show (Candidate.ofDay last.toLunarDay).before (.ofDay d) = !decide (d ≤ last.toLunarDay)
    rw [Candidate.ofDay_before_ofDay, ← decide_not]
    exact decide_eq_decide.2 LunarDay.not_le.symm

@[simp] theorem isFresh_ofDay (taken : Option LunarDay) (d : LunarDay) :
    o.isFresh (taken.map .ofDay) (.ofDay d) = o.isNew taken d := by
  unfold isFresh isNew
  rw [Candidate.ofDay_before_ofDay, ← decide_not]
  cases taken with
  | none => rfl
  | some previous =>
    show (_ && (Candidate.ofDay previous).before (.ofDay d)) = _
    rw [Candidate.ofDay_before_ofDay]
    rfl

theorem freshDays_ofDay (taken : Option LunarDay) (days : List LunarDay) :
    o.freshDays (taken.map .ofDay) (days.map .ofDay) =
      (days.filter (o.isNew taken)).map .ofDay := by
  rw [freshDays, List.filter_map]
  refine congrArg (List.map _) (List.filter_congr fun d _ => ?_)
  exact isFresh_ofDay taken d

/-- Up to the last date is a start of any increasing list. -/
theorem takeWhile_isWithin {days : List LunarDay} (h : days.Pairwise (· < ·)) :
    days.takeWhile o.isWithin = days.filter o.isWithin := by
  induction days with
  | nil => rfl
  | cons d rest ih =>
    obtain ⟨hfirst, hrest⟩ := List.pairwise_cons.1 h
    by_cases hd : o.isWithin d = true
    · rw [List.takeWhile_cons_of_pos hd, List.filter_cons_of_pos hd, ih hrest]
    · have hnone : rest.filter o.isWithin = [] := by
        rw [List.filter_eq_nil_iff]
        intro e he hwithin
        refine hd ?_
        unfold isWithin at hwithin ⊢
        cases hlast : o.last with
        | none => rfl
        | some last =>
          simp only [hlast, Option.all_some, decide_eq_true_eq] at hwithin ⊢
          exact LunarDay.le_of_lt (LunarDay.lt_of_lt_of_le (hfirst e he) hwithin)
      rw [List.takeWhile_cons_of_neg hd, List.filter_cons_of_neg hd, hnone]

theorem chosenDays_ofDay (taken : Option LunarDay) (emitted : Nat) {days : List LunarDay}
    (h : days.Pairwise (· < ·)) :
    o.chosenDays (taken.map .ofDay) emitted (days.map .ofDay) =
      (o.cutAfter emitted (o.newDays taken days)).map .ofDay := by
  have hwithin : ((days.filter (o.isNew taken)).map Candidate.ofDay).takeWhile
      (fun c => !o.isPast c) = (o.newDays taken days).map .ofDay := by
    rw [List.takeWhile_map, newDays, ← List.filter_filter, ← takeWhile_isWithin (h.filter _)]
    refine congrArg (List.map _) (congrArg (fun p => List.takeWhile p _) (funext fun d => ?_))
    simp
  rw [chosenDays, cutAfter, freshDays_ofDay, hwithin]
  cases o.count with
  | none => rfl
  | some count => exact (List.map_take ..).symm

/-- Whether some number of occurrences makes the count of a rule. -/
def isReached (o : RuleOptions) (emitted : Nat) : Bool :=
  o.count.any fun (count : Int) => decide (count ≤ emitted)

/-- Whether the walk ends in a period: a day is after the last date, or the count is reached. -/
def endsAt (o : RuleOptions) (taken : Option LunarDay) (emitted : Nat) (days : List LunarDay) :
    Bool :=
  (days.any fun d => o.isNew taken d && !o.isWithin d) ||
    o.isReached (emitted + (o.cutAfter emitted (o.newDays taken days)).length)

theorem endsIn_ofDay (taken : Option LunarDay) (emitted : Nat) {days : List LunarDay}
    (h : days.Pairwise (· < ·)) :
    o.endsIn (taken.map .ofDay) emitted (days.map .ofDay) = o.endsAt taken emitted days := by
  rw [endsIn, endsAt, isReached,
    freshDays_ofDay, chosenDays_ofDay taken emitted h, List.any_map, List.any_filter,
    List.length_map]
  refine congr (congrArg or (congrArg (List.any days) (funext fun d => ?_))) ?_
  · simp
  · cases o.count <;> rfl

/-! ### Known periods -/

/-- The first periods of a rule are known, up to some number: the days on which they start, and the
days that they propose.  The days exist, and they stand in the order of the periods. -/
structure KnownPeriods (ctx : Context) (answers : Answers) (o : RuleOptions) (cal : Calendar)
    (known : Int) (first : Int → LunarDay) (proposed : Int → List LunarDay) : Prop where
  outcome : ∀ k, 0 ≤ k → k < known → ∃ cursor, (o.cursor ctx k).outcome answers = .ok cursor ∧
    o.periodStart cursor = first k ∧
      (o.periodDays ctx cal cursor).outcome answers = .ok ((proposed k).map .ofDay)
  increasing : ∀ k, 0 ≤ k → k < known → (proposed k).Pairwise (· < ·)
  built : ∀ k, 0 ≤ k → k < known → ∀ d ∈ proposed k, o.isWithin d = true →
    (o.occurrenceOn d).Built ctx answers
  le_of_lt : ∀ j k, 0 ≤ j → j < k → k < known → ∀ a ∈ proposed j, ∀ b ∈ proposed k, a ≤ b
  first_le : ∀ j k, 0 ≤ j → j ≤ k → k < known → ∀ d ∈ proposed k, first j ≤ d

variable {cal : Calendar} {known : Int} {first : Int → LunarDay} {proposed : Int → List LunarDay}

/-! ### One step -/

theorem mem_of_mem_cutAfter {emitted : Nat} {days : List LunarDay} {d : LunarDay}
    (h : d ∈ o.cutAfter emitted days) : d ∈ days := by
  unfold cutAfter at h
  split at h
  · exact h
  · exact List.mem_of_mem_take h

theorem mem_newDays {taken : Option LunarDay} {days : List LunarDay} {d : LunarDay} :
    d ∈ o.newDays taken days ↔ d ∈ days ∧ o.isWithin d = true ∧ o.isNew taken d = true := by
  rw [newDays, List.mem_filter, Bool.and_eq_true]

/-- **A walk ends at a period that starts after the last date.** -/
theorem walk_yields_outside (h : o.KnownPeriods ctx answers cal known first proposed)
    {period : Int} (hk : 0 ≤ period) (hknown : period < known)
    (hpast : ¬o.isWithin (first period) = true) (periods : Nat) (taken : Option LunarDay)
    (emitted : Nat) :
    (o.walk ctx cal (periods + 1) period (taken.map .ofDay) emitted).Yields answers [] := by
  obtain ⟨cursor, hcursor, hfirst, -⟩ := h.outcome period hk hknown
  unfold walk
  refine .after hcursor ?_
  rw [hfirst, isPast_ofDay, if_pos (by simp [hpast])]
  exact Occurrences.yields_done

/-- **A walk passes along the days taken from a period that starts up to the last date,** and goes
on unless it ends there. -/
theorem walk_yields_within (h : o.KnownPeriods ctx answers cal known first proposed)
    {period : Int} (hk : 0 ≤ period) (hknown : period < known)
    (hwithin : o.isWithin (first period) = true) (periods : Nat) {emitted : Nat}
    {taken : Option LunarDay} {chosen : List LunarDay}
    (hchosen : o.cutAfter emitted (o.newDays taken (proposed period)) = chosen)
    {later : List LunarDate}
    (hnext : (if o.endsAt taken emitted (proposed period) then .done
      else o.walk ctx cal periods (period + 1) ((chosen.getLast?.or taken).map .ofDay)
        (emitted + chosen.length)).Yields answers later) :
    (o.walk ctx cal (periods + 1) period (taken.map .ofDay) emitted).Yields answers
      (chosen.map o.occurrenceOn ++ later) := by
  obtain ⟨cursor, hcursor, hfirst, hproposed⟩ := h.outcome period hk hknown
  have hincreasing := h.increasing period hk hknown
  unfold walk
  refine .after hcursor ?_
  rw [hfirst, isPast_ofDay, if_neg (by simp [hwithin])]
  refine .after hproposed ?_
  rw [chosenDays_ofDay taken emitted hincreasing, hchosen, endsIn_ofDay taken emitted hincreasing]
  have hbuilt : ∀ d ∈ chosen, (o.occurrenceOn d).Built ctx answers := by
    intro d hd
    rw [← hchosen] at hd
    obtain ⟨hmem, hd', -⟩ := mem_newDays.1 (mem_of_mem_cutAfter hd)
    exact h.built period hk hknown d hmem hd'
  cases chosen with
  | nil => exact hnext
  | cons head rest =>
    have hlast : ((head :: rest).map Candidate.ofDay).getLast? =
        ((head :: rest).getLast?.or taken).map .ofDay := by
      rw [List.getLast?_map, List.getLast?_cons, Option.some_or]
    have hlength : ((head :: rest).map Candidate.ofDay).length = (head :: rest).length :=
      List.length_map _
    rw [← hlast, ← hlength] at hnext
    have hdates : ∀ d ∈ head :: rest, (o.dateOn ctx (.ofDay d)).outcome answers =
        .ok (o.occurrenceOn d) := hbuilt
    exact Occurrences.Yields.yieldAll (f := o.dateOn ctx) hdates hnext

/-! ### All steps -/

/-- A day after the last date takes every later day with it. -/
theorem not_isWithin_of_le {a b : LunarDay} (ha : ¬o.isWithin a = true) (h : a ≤ b) :
    ¬o.isWithin b = true := by
  unfold isWithin at ha ⊢
  cases hlast : o.last with
  | none => simp [hlast] at ha
  | some last =>
    simp only [hlast, Option.all_some, decide_eq_true_eq] at ha ⊢
    exact fun hb => ha (LunarDay.le_trans h hb)

theorem isNew_iff {taken : Option LunarDay} {d : LunarDay} :
    o.isNew taken d = true ↔ o.start.toLunarDay ≤ d ∧ ∀ previous ∈ taken, previous < d := by
  rw [isNew, Bool.and_eq_true, decide_eq_true_eq, Option.all_eq_true]
  simp only [decide_eq_true_eq, Option.mem_def]

/-- Before any day is taken, only those before the start are held back. -/
theorem isNew_none_iff {d : LunarDay} : o.isNew none d = true ↔ o.start.toLunarDay ≤ d := by
  simp [isNew_iff]

theorem cutAfter_nil (emitted : Nat) : o.cutAfter emitted [] = [] := by
  unfold cutAfter
  split
  · rfl
  · exact List.take_nil

/-- A list that does not make the count is not cut. -/
theorem cutAfter_eq_self {emitted : Nat} {days : List LunarDay}
    (h : o.isReached (emitted + (o.cutAfter emitted days).length) = false) :
    o.cutAfter emitted days = days := by
  unfold isReached at h
  unfold cutAfter at h ⊢
  cases hcount : o.count with
  | none => rfl
  | some count =>
    simp only [hcount, Option.any_some, decide_eq_false_iff_not, List.length_take] at h
    exact List.take_of_length_le (by omega)

/-- A list is cut before what follows it is. -/
theorem cutAfter_append (emitted : Nat) (days later : List LunarDay) :
    o.cutAfter emitted (days ++ later) = o.cutAfter emitted days ++
      if o.isReached (emitted + (o.cutAfter emitted days).length) then []
      else o.cutAfter (emitted + (o.cutAfter emitted days).length) later := by
  unfold isReached cutAfter
  cases o.count with
  | none => rfl
  | some count =>
    simp only [Option.any_some, decide_eq_true_eq, List.length_take, List.take_append]
    refine congrArg _ ?_
    split
    · rw [show (count - emitted).toNat - days.length = 0 by omega, List.take_zero]
    · exact congrArg (fun n => List.take n later) (by omega)

/-- The days that periods from one number on declare: those proposed there that may be taken, in
strictly increasing order. -/
structure Declared (o : RuleOptions) (proposed : Int → List LunarDay) (period : Int) (periods : Nat)
    (taken : Option LunarDay) (days : List LunarDay) : Prop where
  increasing : days.Pairwise (· < ·)
  mem_iff : ∀ d, d ∈ days ↔
    (∃ k, period ≤ k ∧ k < period + periods ∧ d ∈ proposed k) ∧
      o.isWithin d = true ∧ o.isNew taken d = true

/-- No periods declare no days. -/
theorem declared_zero {period : Int} {taken : Option LunarDay} :
    o.Declared proposed period 0 taken [] := by
  refine ⟨List.Pairwise.nil, fun d => ⟨fun hd => absurd hd List.not_mem_nil, ?_⟩⟩
  rintro ⟨⟨k, hle, hlt, -⟩, -⟩
  omega

/-- What is new after some new days was new before them. -/
theorem isNew_of_getLast? {taken : Option LunarDay} {new : List LunarDay} {d : LunarDay}
    (hnew : ∀ e ∈ new, o.isNew taken e = true) (h : o.isNew (new.getLast?.or taken) d = true) :
    o.isNew taken d = true := by
  cases hlast : new.getLast? with
  | none => rwa [hlast] at h
  | some last =>
    rw [hlast, Option.some_or, isNew_iff] at h
    have hlastNew := isNew_iff.1 (hnew last (List.mem_of_getLast? hlast))
    refine isNew_iff.2 ⟨h.1, ?_⟩
    intro previous hprevious
    exact LunarDay.lt_trans (hlastNew.2 previous hprevious) (h.2 last rfl)

/-- A new day that is not before some other days is one of them, or it is new after them. -/
theorem mem_or_isNew_getLast? {taken : Option LunarDay} {new : List LunarDay} {d : LunarDay}
    (hle : ∀ e ∈ new, e ≤ d) (h : o.isNew taken d = true) :
    d ∈ new ∨ o.isNew (new.getLast?.or taken) d = true := by
  cases hlast : new.getLast? with
  | none => exact Or.inr h
  | some last =>
    have hmem := List.mem_of_getLast? hlast
    rcases LunarDay.lt_or_eq_of_le (hle last hmem) with hlt | rfl
    · refine Or.inr (isNew_iff.2 ⟨(isNew_iff.1 h).1, fun previous hprevious => ?_⟩)
      rw [← Option.some.inj hprevious]
      exact hlt
    · exact Or.inl hmem

section Steps

variable (h : o.KnownPeriods ctx answers cal known first proposed) {period : Int} (hk : 0 ≤ period)

include h hk

/-- The days of a period, followed by those declared after it. -/
theorem Declared.append {periods : Nat} (hknown : period + (periods + 1 : Nat) ≤ known)
    {taken : Option LunarDay} {days new later : List LunarDay} (hdays : proposed period = days)
    (hnew : o.newDays taken days = new)
    (hlater : o.Declared proposed (period + 1) periods (new.getLast?.or taken) later) :
    o.Declared proposed period (periods + 1) taken (new ++ later) := by
  have hmem {d : LunarDay} :
      d ∈ new ↔ d ∈ days ∧ o.isWithin d = true ∧ o.isNew taken d = true := by
    rw [← hnew]
    exact mem_newDays
  have hincreasing : new.Pairwise (· < ·) := by
    rw [← hnew, ← hdays]
    exact (h.increasing period hk (by omega)).filter _
  have hall : ∀ e ∈ new, o.isNew taken e = true := by
    intro e he
    exact (hmem.1 he).2.2
  constructor
  · refine List.pairwise_append.2 ⟨hincreasing, hlater.increasing, ?_⟩
    intro a ha b hb
    obtain ⟨-, -, hnewb⟩ := (hlater.mem_iff b).1 hb
    cases hlast : new.getLast? with
    | none => exact absurd (List.getLast?_eq_none_iff.1 hlast) (List.ne_nil_of_mem ha)
    | some last =>
      rw [hlast, Option.some_or, isNew_iff] at hnewb
      exact LunarDay.lt_of_le_of_lt (LunarDay.le_of_mem_getLast? hincreasing ha hlast)
        (hnewb.2 last rfl)
  · intro d
    rw [List.mem_append, hmem, hlater.mem_iff]
    constructor
    · rintro (⟨hd, hd'⟩ | ⟨⟨k, hle, hlt, hd⟩, hwithin, hd'⟩)
      · exact ⟨⟨period, Int.le_refl _, by omega, hdays ▸ hd⟩, hd'⟩
      · exact ⟨⟨k, by omega, by omega, hd⟩, hwithin, isNew_of_getLast? hall hd'⟩
    · rintro ⟨⟨k, hle, hlt, hd⟩, hwithin, hd'⟩
      rcases Int.lt_or_eq_of_le hle with hafter | rfl
      · -- a later period proposes the day: it is not before any day of this period
        have hbefore : ∀ e ∈ new, e ≤ d := by
          intro e he
          exact h.le_of_lt period k hk hafter (by omega) e (hdays.symm ▸ (hmem.1 he).1) d hd
        rcases mem_or_isNew_getLast? hbefore hd' with hnewd | hnewd
        · exact Or.inl (hmem.1 hnewd)
        · exact Or.inr ⟨⟨k, by omega, by omega, hd⟩, hwithin, hnewd⟩
      · exact Or.inl ⟨hdays ▸ hd, hwithin, hd'⟩

/-- Known periods declare some days. -/
theorem exists_declared {periods : Nat} (hknown : period + periods ≤ known)
    (taken : Option LunarDay) : ∃ days, o.Declared proposed period periods taken days := by
  induction periods generalizing period taken with
  | zero => exact ⟨[], declared_zero⟩
  | succ periods ih =>
    obtain ⟨later, hlater⟩ := ih (show 0 ≤ period + 1 by omega) (by omega) _
    exact ⟨_, .append h hk hknown rfl rfl hlater⟩

/-- Nothing is declared when the first period starts after the last date. -/
theorem declared_nil {periods : Nat} (hknown : period + periods ≤ known)
    (hpast : ¬o.isWithin (first period) = true) (taken : Option LunarDay) :
    o.Declared proposed period periods taken [] := by
  refine ⟨List.Pairwise.nil, fun d => ⟨fun hd => absurd hd List.not_mem_nil, ?_⟩⟩
  rintro ⟨⟨k, hle, hlt, hd⟩, hwithin, -⟩
  exact absurd hwithin (not_isWithin_of_le hpast (h.first_le period k hk hle (by omega) d hd))

/-- Nothing is declared after a period that has a day after the last date. -/
theorem declared_newDays {periods : Nat} (hknown : period + (periods + 1 : Nat) ≤ known)
    {d : LunarDay} (hd : d ∈ proposed period) (hpast : ¬o.isWithin d = true)
    (taken : Option LunarDay) :
    o.Declared proposed period (periods + 1) taken (o.newDays taken (proposed period)) := by
  refine ⟨(h.increasing period hk (by omega)).filter _, fun e => mem_newDays.trans ?_⟩
  constructor
  · rintro ⟨he, he'⟩
    exact ⟨⟨period, Int.le_refl _, by omega, he⟩, he'⟩
  · rintro ⟨⟨k, hle, hlt, he⟩, hwithin, hnew⟩
    rcases Int.lt_or_eq_of_le hle with hafter | rfl
    · have hde := h.le_of_lt period k hk hafter (by omega) d hd e he
      exact absurd hwithin (not_isWithin_of_le hpast hde)
    · exact ⟨he, hwithin, hnew⟩

end Steps

/-- Some periods propose a day after the last date at which the walk ends: one that it does not pass
over as before the first date. -/
def ProposesPast (o : RuleOptions) (proposed : Int → List LunarDay) (period : Int) (periods : Nat) :
    Prop :=
  ∃ k, period ≤ k ∧ k < period + periods ∧
    ∃ d ∈ proposed k, o.start.toLunarDay ≤ d ∧ ¬o.isWithin d = true

/-- What was taken is before a day after the last date. -/
theorem isNew_of_not_isWithin {taken : Option LunarDay}
    (htaken : ∀ previous ∈ taken, o.isWithin previous = true) {d : LunarDay}
    (hstart : o.start.toLunarDay ≤ d) (hpast : ¬o.isWithin d = true) : o.isNew taken d = true := by
  refine isNew_iff.2 ⟨hstart, fun previous hprevious => ?_⟩
  by_contra hle
  exact not_isWithin_of_le hpast hle (htaken previous hprevious)

/-- A day after the last date that the first period does not propose is proposed later. -/
theorem ProposesPast.next {period : Int} {periods : Nat}
    (h : o.ProposesPast proposed period (periods + 1)) {taken : Option LunarDay}
    (htaken : ∀ previous ∈ taken, o.isWithin previous = true)
    (hnone : ¬((proposed period).any fun d => o.isNew taken d && !o.isWithin d) = true) :
    o.ProposesPast proposed (period + 1) periods := by
  obtain ⟨k, hle, hlt, d, hd, hstart, hpast⟩ := h
  rcases Int.lt_or_eq_of_le hle with hafter | rfl
  · exact ⟨k, by omega, by omega, d, hd, hstart, hpast⟩
  · refine absurd (List.any_eq_true.2 ⟨d, hd, ?_⟩) hnone
    simp [isNew_of_not_isWithin htaken hstart hpast, hpast]

/-- The last day taken is up to the last date, when all days taken are. -/
theorem isWithin_of_mem_getLast?_or {days : List LunarDay} (hdays : ∀ d ∈ days, o.isWithin d = true)
    {taken : Option LunarDay} (htaken : ∀ previous ∈ taken, o.isWithin previous = true) :
    ∀ previous ∈ days.getLast?.or taken, o.isWithin previous = true := by
  intro previous hprevious
  cases hlast : days.getLast? with
  | none => exact htaken previous (by rwa [hlast] at hprevious)
  | some last =>
    rw [hlast, Option.some_or, Option.mem_some_iff] at hprevious
    exact hprevious ▸ hdays last (List.mem_of_getLast? hlast)

/-- Some periods end the walk: they propose a day after the last date, or they declare as many days
as make the count. -/
def EndsWithin (o : RuleOptions) (proposed : Int → List LunarDay) (period : Int) (periods : Nat)
    (taken : Option LunarDay) (emitted : Nat) : Prop :=
  o.ProposesPast proposed period periods ∨
    ∀ days, o.Declared proposed period periods taken days →
      o.isReached (emitted + days.length) = true

/-- No periods end no walk before its count is reached. -/
theorem isReached_of_endsWithin_zero {period : Int} {taken : Option LunarDay} {emitted : Nat}
    (h : o.EndsWithin proposed period 0 taken emitted) : o.isReached emitted = true := by
  rcases h with ⟨k, hle, hlt, -⟩ | hcount
  · omega
  · exact hcount [] declared_zero

/-- Periods that end the walk end it after the first one, unless the first one does. -/
theorem EndsWithin.next (h : o.KnownPeriods ctx answers cal known first proposed) {periods : Nat}
    {period : Int} (hk : 0 ≤ period) (hknown : period + (periods + 1 : Nat) ≤ known)
    {taken : Option LunarDay} (htaken : ∀ previous ∈ taken, o.isWithin previous = true)
    {emitted : Nat} (hends : o.EndsWithin proposed period (periods + 1) taken emitted)
    {new : List LunarDay} (hnew : o.newDays taken (proposed period) = new)
    (hnone : ¬((proposed period).any fun d => o.isNew taken d && !o.isWithin d) = true) :
    o.EndsWithin proposed (period + 1) periods (new.getLast?.or taken) (emitted + new.length) := by
  refine hends.imp (fun hpast => hpast.next htaken hnone) fun hcount later hlater => ?_
  have hreached := hcount (new ++ later) (.append h hk hknown rfl hnew hlater)
  rwa [List.length_append, ← Nat.add_assoc] at hreached

section Ways

variable (h : o.KnownPeriods ctx answers cal known first proposed) {period : Int} (hk : 0 ≤ period)
  {periods : Nat} (hknown : period + (periods + 1 : Nat) ≤ known)
  (hwithin : o.isWithin (first period) = true) (more : Nat) {taken : Option LunarDay}
  {emitted : Nat}

include h hk hknown hwithin

/-- A walk that ends in a period passes along the days taken from it. -/
theorem walk_yields_last (hends : o.endsAt taken emitted (proposed period) = true) :
    (o.walk ctx cal (more + 1) period (taken.map .ofDay) emitted).Yields answers
      ((o.cutAfter emitted (o.newDays taken (proposed period))).map o.occurrenceOn) := by
  have hyields := walk_yields_within h hk (by omega) hwithin more rfl
    (by rw [if_pos hends]; exact Occurrences.yields_done)
  rwa [List.append_nil] at hyields

/-- A walk that comes to a day after the last date: no later period declares anything. -/
theorem exists_declared_of_past
    (hpast : ((proposed period).any fun d => o.isNew taken d && !o.isWithin d) = true) :
    ∃ days, o.Declared proposed period (periods + 1) taken days ∧
      (o.walk ctx cal (more + 1) period (taken.map .ofDay) emitted).Yields answers
        ((o.cutAfter emitted days).map o.occurrenceOn) := by
  obtain ⟨d, hd, hd'⟩ := List.any_eq_true.1 hpast
  have hafter : ¬o.isWithin d = true := by simpa using (Bool.and_eq_true_iff.1 hd').2
  have hends : o.endsAt taken emitted (proposed period) = true := by
    rw [endsAt, hpast, Bool.true_or]
  exact ⟨_, declared_newDays h hk hknown hd hafter taken,
    walk_yields_last h hk hknown hwithin more hends⟩

/-- A walk that comes to its count: what is declared later is cut away. -/
theorem exists_declared_of_reached
    (hreached : o.isReached (emitted +
      (o.cutAfter emitted (o.newDays taken (proposed period))).length) = true) :
    ∃ days, o.Declared proposed period (periods + 1) taken days ∧
      (o.walk ctx cal (more + 1) period (taken.map .ofDay) emitted).Yields answers
        ((o.cutAfter emitted days).map o.occurrenceOn) := by
  have hends : o.endsAt taken emitted (proposed period) = true := by
    rw [endsAt, hreached, Bool.or_true]
  obtain ⟨later, hlater⟩ := exists_declared h (show 0 ≤ period + 1 by omega)
    (show period + 1 + periods ≤ known by omega)
    ((o.newDays taken (proposed period)).getLast?.or taken)
  refine ⟨_, .append h hk hknown rfl rfl hlater, ?_⟩
  rw [cutAfter_append, if_pos hreached, List.append_nil]
  exact walk_yields_last h hk hknown hwithin more hends

/-- A walk that goes on after a period: nothing is cut from the days of the period, and those that
the rest of the walk passes along follow them. -/
theorem exists_declared_of_next
    (hnone : ¬((proposed period).any fun d => o.isNew taken d && !o.isWithin d) = true)
    {new : List LunarDay} (hnew : o.newDays taken (proposed period) = new)
    (hreached : o.isReached (emitted + (o.cutAfter emitted new).length) = false)
    (hlater : ∃ later, o.Declared proposed (period + 1) periods (new.getLast?.or taken) later ∧
      (o.walk ctx cal more (period + 1) ((new.getLast?.or taken).map .ofDay)
        (emitted + new.length)).Yields answers
          ((o.cutAfter (emitted + new.length) later).map o.occurrenceOn)) :
    ∃ days, o.Declared proposed period (periods + 1) taken days ∧
      (o.walk ctx cal (more + 1) period (taken.map .ofDay) emitted).Yields answers
        ((o.cutAfter emitted days).map o.occurrenceOn) := by
  obtain ⟨later, hdeclared, hyields⟩ := hlater
  have hcut : o.cutAfter emitted new = new := cutAfter_eq_self hreached
  rw [hcut] at hreached
  have hends : o.endsAt taken emitted (proposed period) = false := by
    rw [endsAt, Bool.eq_false_iff.2 hnone, hnew, hcut, hreached, Bool.false_or]
  refine ⟨new ++ later, .append h hk hknown rfl hnew hdeclared, ?_⟩
  rw [cutAfter_append, hcut, hreached, if_neg Bool.false_ne_true, List.map_append]
  refine walk_yields_within h hk (by omega) hwithin more (by rw [hnew, hcut]) ?_
  rwa [hends, if_neg Bool.false_ne_true]

end Ways

/-- **The walk yields what its known periods declare, cut to the count,** when they end it, or what
is left of the walk yields nothing. -/
theorem walk_yields (h : o.KnownPeriods ctx answers cal known first proposed) {periods more : Nat}
    {period : Int} (hk : 0 ≤ period) (hknown : period + periods ≤ known)
    {taken : Option LunarDay} (htaken : ∀ previous ∈ taken, o.isWithin previous = true)
    {emitted : Nat} (hfew : o.isReached emitted = false)
    (hend : o.EndsWithin proposed period periods taken emitted ∨ ∀ taken emitted,
      (o.walk ctx cal more (period + periods) taken emitted).Yields answers []) :
    ∃ days, o.Declared proposed period periods taken days ∧
      (o.walk ctx cal (periods + more) period (taken.map .ofDay) emitted).Yields answers
        ((o.cutAfter emitted days).map o.occurrenceOn) := by
  induction periods generalizing period taken emitted with
  | zero =>
    refine ⟨[], declared_zero, ?_⟩
    rw [cutAfter_nil, Nat.zero_add]
    rcases hend with hends | hmore
    · exact absurd (hfew.symm.trans (isReached_of_endsWithin_zero hends)) (by decide)
    · rw [Int.natCast_zero, Int.add_zero] at hmore
      exact hmore _ _
  | succ periods ih =>
    rw [Nat.succ_add]
    by_cases hwithin : o.isWithin (first period) = true
    · by_cases hpast :
          ((proposed period).any fun d => o.isNew taken d && !o.isWithin d) = true
      · exact exists_declared_of_past h hk hknown hwithin _ hpast
      obtain ⟨new, hnew⟩ : ∃ new, o.newDays taken (proposed period) = new := ⟨_, rfl⟩
      cases hreached : o.isReached (emitted + (o.cutAfter emitted new).length) with
      | true => exact exists_declared_of_reached h hk hknown hwithin _ (by rw [hnew, hreached])
      | false =>
        refine exists_declared_of_next h hk hknown hwithin _ hpast hnew hreached ?_
        rw [cutAfter_eq_self hreached] at hreached
        have hwithinNew : ∀ d ∈ new, o.isWithin d = true := by
          intro d hd
          rw [← hnew] at hd
          exact (mem_newDays.1 hd).2.1
        refine ih (show 0 ≤ period + 1 by omega) (by omega)
          (isWithin_of_mem_getLast?_or hwithinNew htaken) hreached
          (hend.imp (fun hwhole => hwhole.next h hk hknown htaken hnew hpast) fun hmore => ?_)
        rwa [show period + 1 + periods = period + (periods + 1 : Nat) by omega]
    · refine ⟨[], declared_nil h hk hknown hwithin _, ?_⟩
      rw [cutAfter_nil]
      exact walk_yields_outside h hk (by omega) hwithin _ taken emitted

/-! ### The tabular calendar -/

/-- The days of a period of the tabular calendar, by its number. -/
def daysAt (o : RuleOptions) (period : Int) : List LunarDay := o.daysOfPeriod (o.cursorDay period)

/-- An occurrence on a day that exists is a date that exists. -/
theorem built_occurrenceOn (ho : o.Normalized ctx answers) (hv : o.variant = .tabular)
    {d : LunarDay} (hd : IsDay d) : (o.occurrenceOn d).Built ctx answers := by
  have hbuilt := ho.start.onDay (ho.start_variant.trans hv) hd
  rw [LunarDate.onDay, ho.start_variant] at hbuilt
  exact hbuilt

theorem isDay_of_mem_daysOfPeriod (ho : o.Normalized ctx answers) (hv : o.variant = .tabular)
    {period : Int} (hk : 0 ≤ period) {d : LunarDay} (h : d ∈ o.daysOfPeriod (o.cursorDay period)) :
    IsDay d :=
  (span_of_mem_proposedDays ho (isDay_cursorDay ho hv hk) (mem_proposedDays_of_mem h)).1

/-- **All periods of a rule of the tabular calendar are known.** -/
theorem knownPeriods (ho : o.Normalized ctx answers) (hv : o.variant = .tabular)
    (hx : o.CountsDaysExactly ctx answers) :
    o.KnownPeriods ctx answers Tabular.calendar o.periodLimit
      (fun period => o.firstOfPeriod (o.cursorDay period)) o.daysAt where
  outcome k hk hlimit := by
    obtain ⟨cursor, hcursor, hbuilt, hcv, hday⟩ := outcome_cursor ho hv hk (hx.cursor k hk hlimit)
    have hproposed := outcome_periodDays ho hv hbuilt hcv (hx.week k cursor hk hlimit hcursor)
    rw [hday] at hproposed
    exact ⟨cursor, hcursor, by rw [periodStart_eq, hday], hproposed⟩
  increasing k _ _ := increasing_daysOfPeriod o (o.cursorDay k)
  built _ hk _ _ hd _ := built_occurrenceOn ho hv (isDay_of_mem_daysOfPeriod ho hv hk hd)
  le_of_lt _ _ hj hlt _ _ ha _ hb := le_of_mem_daysOfPeriod ho hv hj hlt ha hb
  first_le _ _ hj hle _ _ hd := firstOfPeriod_le_of_mem ho hv hj hle hd

end HijriRecurrence.RuleOptions
