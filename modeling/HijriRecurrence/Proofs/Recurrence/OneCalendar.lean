import HijriRecurrence.Proofs.Occurrence.Image
import HijriRecurrence.Proofs.Recurrence.Increasing

/-!
# Recurrences in one calendar

A rule builds all its occurrences in its own calendar: putting them there changes nothing
(`RuleOptions.map_inVariant_occurrences`).  Neither merging nor excluding changes a date.  So a
recurrence whose rules and dates are all in one calendar has its occurrences there
(`Recurrence.variant_of_isIn`).

The dates of a set need not be in the calendar of its rules.  Put there as they are, with the same
year, month, day and time of day, they make a set with the same occurrences, all of them in that
calendar (`RuleSet.occurrences_inVariant`): nothing that a set does looks at a calendar.
-/

namespace HijriRecurrence

open LunarDate

variable {ctx : Context} {answers : Answers}

namespace Occurrences

variable {P : LunarDate → Prop}

theorem forall_items_mergeHead {head : LunarDate}
    {others : Occurrences LunarDate → Occurrences LunarDate} (hhead : P head)
    (hothers : ∀ walk : Occurrences LunarDate, (∀ d ∈ walk.items answers, P d) →
      ∀ d ∈ (others walk).items answers, P d)
    {second : Occurrences LunarDate} (h : ∀ d ∈ second.items answers, P d) :
    ∀ d ∈ (mergeHead head others second).items answers, P d := by
  induction second with
  | done => exact List.forall_mem_cons.2 ⟨hhead, hothers done h⟩
  | failed e => exact h
  | item next rest ih =>
    obtain ⟨hnext, hrest⟩ := List.forall_mem_cons.1 h
    rw [mergeHead]
    split
    · exact List.forall_mem_cons.2 ⟨hnext, ih () hrest⟩
    · exact List.forall_mem_cons.2 ⟨hhead, hothers _ h⟩
  | ask inquiry next ih => exact ih (answers inquiry) h

theorem forall_items_merge2 {first second : Occurrences LunarDate}
    (h : ∀ d ∈ first.items answers, P d) (k : ∀ d ∈ second.items answers, P d) :
    ∀ d ∈ (merge2 first second).items answers, P d := by
  induction first generalizing second with
  | done => exact k
  | failed e => exact h
  | item head rest ih =>
    obtain ⟨hhead, hrest⟩ := List.forall_mem_cons.1 h
    exact forall_items_mergeHead hhead (fun walk hwalk => ih () hrest hwalk) k
  | ask inquiry next ih => exact ih (answers inquiry) h k

/-- What holds of all occurrences of some walks holds of all that their merge passes. -/
theorem forall_items_merge {walks : List (Occurrences LunarDate)}
    (h : ∀ walk ∈ walks, ∀ d ∈ walk.items answers, P d) :
    ∀ d ∈ (merge walks).items answers, P d := by
  induction walks with
  | nil => exact fun d hd => absurd hd List.not_mem_nil
  | cons walk rest ih =>
    exact forall_items_merge2 (h walk List.mem_cons_self)
      (ih fun w hw => h w (List.mem_cons_of_mem walk hw))

/-- What holds of all included occurrences holds of those that a sweep keeps. -/
theorem forall_items_exclude {included excluded : Occurrences LunarDate} {last : Option String}
    (h : ∀ d ∈ included.items answers, P d) :
    ∀ d ∈ (exclude included last excluded).items answers, P d := by
  induction included generalizing last excluded with
  | done => exact h
  | failed e => exact h
  | item head rest ih =>
    obtain ⟨hhead, hrest⟩ := List.forall_mem_cons.1 h
    rw [exclude]
    split
    · exact ih () hrest
    · rw [items_after]
      split
      · split
        · exact ih () hrest
        · exact List.forall_mem_cons.2 ⟨hhead, ih () hrest⟩
      · exact fun d hd => absurd hd List.not_mem_nil
  | ask inquiry next ih => exact ih (answers inquiry) h

end Occurrences

open Occurrences

/-- The date with the same parts in another calendar, whether or not it exists there. -/
def LunarDate.inVariant (d : LunarDate) (variant : Variant) : LunarDate := { d with variant }

theorem LunarDate.keepsDays_inVariant (variant : Variant) : KeepsDays (·.inVariant variant) :=
  fun _ => rfl

namespace RuleOptions

/-- A rule builds its dates in its own calendar. -/
theorem map_inVariant_dateOn (o : RuleOptions) (c : Candidate) :
    (·.inVariant o.variant) <$> o.dateOn ctx c = o.dateOn ctx c := by
  rw [dateOn, map_bind]
  refine congrArg _ (funext fun day => ?_)
  rw [LunarDate.build, map_bind]
  refine congrArg _ (funext fun _ => ?_)
  rw [map_bind]
  exact congrArg _ (funext fun _ => map_pure _ _)

theorem map_inVariant_walk (o : RuleOptions) (cal : Calendar) (periods : Nat) (period : Int)
    (taken : Option Candidate) (emitted : Nat) :
    (o.walk ctx cal periods period taken emitted).map (·.inVariant o.variant) =
      o.walk ctx cal periods period taken emitted := by
  induction periods generalizing period taken emitted with
  | zero => rfl
  | succ periods ih =>
    rw [walk, map_after]
    refine congrArg (after _) (funext fun start => ?_)
    split
    · rfl
    · rw [map_after]
      refine congrArg (after _) (funext fun days => ?_)
      split
      · split
        · rfl
        · exact ih (period + 1) taken emitted
      · rw [map_yieldAll (@map_inVariant_dateOn ctx o)]
        refine congrArg (yieldAll _ _) (funext fun _ => ?_)
        split
        · rfl
        · exact ih (period + 1) _ _

/-- **The occurrences of a rule stay as they are in the rule's calendar.** -/
theorem map_inVariant_occurrences (o : RuleOptions) :
    (o.occurrences ctx).map (·.inVariant o.variant) = o.occurrences ctx := by
  rw [occurrences]
  split
  · rfl
  · rw [map_after]
    exact congrArg (after _) (funext fun cal => o.map_inVariant_walk cal _ 0 none 0)

/-- **The occurrences of a rule are in its calendar.** -/
theorem variant_of_mem_occurrences {o : RuleOptions} :
    ∀ d ∈ (o.occurrences ctx).items answers, d.variant = o.variant := by
  have hmap := items_map answers (·.inVariant o.variant) (o.occurrences ctx)
  rw [o.map_inVariant_occurrences] at hmap
  intro d hd
  have hsame : d.inVariant o.variant = d :=
    List.map_inj_left.1 (hmap.symm.trans (List.map_id _).symm) d hd
  exact (congrArg LunarDate.variant hsame).symm

end RuleOptions

/-- A source is a rule of a calendar. -/
def Source.IsIn (variant : Variant) : Source → Prop
  | rule r => r.options.variant = variant
  | other _ => False

theorem Source.exists_rules_of_isIn {variant : Variant} {sources : List Source}
    (h : ∀ source ∈ sources, source.IsIn variant) : ∃ rules : List Rule, sources = rules.map rule := by
  refine exists_rules_of_all (List.all_eq_true.2 fun source hsource => ?_)
  cases source with
  | rule r => rfl
  | other value => exact (h _ hsource).elim

/-- All rules and dates of a recurrence are in one calendar.  What a set excludes may be in any. -/
def Recurrence.IsIn (variant : Variant) : Recurrence → Prop
  | rule r => r.options.variant = variant
  | set s => (∀ source ∈ s.rules, source.IsIn variant) ∧ ∀ d ∈ s.dates, d.variant = variant

namespace RuleSet

theorem variant_of_mem_walks (answers : Answers) {variant : Variant} {sources : List Source}
    {dates : List LunarDate} (hsources : ∀ source ∈ sources, source.IsIn variant)
    (hdates : ∀ d ∈ dates, d.variant = variant) {found : List (Occurrences LunarDate)}
    (h : walks ctx sources dates = .ok found) :
    ∀ walk ∈ found, ∀ d ∈ walk.items answers, d.variant = variant := by
  obtain ⟨rules, rfl⟩ := Source.exists_rules_of_isIn hsources
  rw [walks, Source.walks_rules] at h
  obtain rfl := Except.ok.inj h
  intro walk hwalk d hd
  rcases List.mem_append.1 hwalk with hrule | hlist
  · obtain ⟨r, hr, rfl⟩ := List.mem_map.1 hrule
    exact (RuleOptions.variant_of_mem_occurrences d hd).trans
      (hsources _ (List.mem_map_of_mem hr))
  · rw [List.mem_singleton.1 hlist, items_ofList] at hd
    exact hdates d ((List.mergeSort_perm dates _).mem_iff.1 hd)

end RuleSet

/-- **The occurrences of a recurrence in one calendar are in this calendar.** -/
theorem Recurrence.variant_of_isIn {r : Recurrence} {variant : Variant} (h : r.IsIn variant) :
    ∀ d ∈ (r.occurrences ctx).items answers, d.variant = variant := by
  cases r with
  | rule r =>
    exact fun d hd => (RuleOptions.variant_of_mem_occurrences d hd).trans h
  | set s =>
    obtain ⟨hsources, hdates⟩ := h
    have hnone : ∀ d ∈ ([] : List LunarDate), d.variant = variant :=
      fun d hd => absurd hd List.not_mem_nil
    rw [Recurrence.occurrences, RuleSet.occurrences]
    cases hincluded : RuleSet.walks ctx s.rules s.dates with
    | error e => exact hnone
    | ok included =>
      have hwalks := RuleSet.variant_of_mem_walks answers hsources hdates hincluded
      cases RuleSet.walks ctx s.exRules s.exDates with
      | error e => exact hnone
      | ok excluded =>
        dsimp only
        rw [mergeExcept, items_after]
        split
        · exact forall_items_exclude (forall_items_merge hwalks)
        · exact hnone

/-! ### Dates put in the calendar of the rules -/

namespace RuleSet

variable {variant : Variant}

/-- The set with all its dates put in one calendar. -/
def inVariant (s : RuleSet) (variant : Variant) : RuleSet :=
  { s with
    dates := s.dates.map (·.inVariant variant)
    exDates := s.exDates.map (·.inVariant variant) }

theorem walks_inVariant {sources : List Source} (hin : ∀ source ∈ sources, source.IsIn variant)
    (dates : List LunarDate) :
    walks ctx sources (dates.map (·.inVariant variant)) =
      (walks ctx sources dates).map (List.map (map (·.inVariant variant))) := by
  obtain ⟨rules, rfl⟩ := Source.exists_rules_of_isIn hin
  have hrules : (rules.map fun r => (r.options.occurrences ctx)).map (map (·.inVariant variant)) =
      rules.map fun r => r.options.occurrences ctx := by
    rw [List.map_map]
    refine List.map_congr_left fun r hr => ?_
    have hvariant : r.options.variant = variant := hin _ (List.mem_map_of_mem hr)
    exact hvariant ▸ r.options.map_inVariant_occurrences
  rw [walks, walks, Source.walks_rules,
    LunarDate.sortDates_map (LunarDate.keepsDays_inVariant variant), ofList_map]
  refine congrArg Except.ok ?_
  rw [List.map_append, hrules]
  rfl

/-- **A set has the same occurrences when its dates are put in the calendar of its rules.** -/
theorem occurrences_inVariant {s : RuleSet} (hrules : ∀ source ∈ s.rules, source.IsIn variant)
    (hexRules : ∀ source ∈ s.exRules, source.IsIn variant) :
    (s.inVariant variant).occurrences ctx = (s.occurrences ctx).map (·.inVariant variant) := by
  have hincluded : walks ctx (s.inVariant variant).rules (s.inVariant variant).dates =
      (walks ctx s.rules s.dates).map (List.map (map (·.inVariant variant))) :=
    walks_inVariant hrules s.dates
  have hexcluded : walks ctx (s.inVariant variant).exRules (s.inVariant variant).exDates =
      (walks ctx s.exRules s.exDates).map (List.map (map (·.inVariant variant))) :=
    walks_inVariant hexRules s.exDates
  simp only [occurrences, hincluded, hexcluded]
  cases walks ctx s.rules s.dates with
  | error e => rfl
  | ok included =>
    cases walks ctx s.exRules s.exDates with
    | error e => rfl
    | ok excluded => exact mergeExcept_map (LunarDate.keepsDays_inVariant variant) _ _

end RuleSet

end HijriRecurrence
