import HijriRecurrence.Proofs.Occurrence.Exclude
import HijriRecurrence.Proofs.Rule.Enumeration
import HijriRecurrence.Proofs.Rule.Increasing
import HijriRecurrence.Recurrence.Basic

/-!
# The days of a set

A set of rules and dates has the days that its rules and dates have, less those that its excluding
rules and dates have, each once and in increasing order (`RuleSet.exists_occurrences`), as long as
none of its rules fails.

A set comes about by additions.  What each of them does to the included and the excluded days is
said by one step (`RuleSet.mem_includedDays_add`, `RuleSet.mem_excludedDays_add`); so after any
number of additions the days are known from the additions alone, and their order does not matter
(`RuleSet.occurrences_addAll`).
-/

namespace HijriRecurrence

open LunarDate Occurrences

variable {ctx : Context} {answers : Answers}

/-! ### Sources -/

namespace Source

/-- The days of a source, up to its end or its failure. -/
def days (ctx : Context) (answers : Answers) (source : Source) : List LunarDay :=
  match source.walk ctx with
  | .ok walk => LunarDate.days (walk.items answers)
  | .error _ => []

/-- A source is a rule whose occurrences do not end in a failure. -/
def IsSound (ctx : Context) (answers : Answers) : Source → Prop
  | rule r => (r.options.occurrences ctx).ending answers = none
  | other _ => False

theorem exists_rules {sources : List Source} (h : ∀ source ∈ sources, source.IsSound ctx answers) :
    ∃ rules : List Rule, sources = rules.map rule ∧
      ∀ r ∈ rules, (r.options.occurrences ctx).ending answers = none := by
  induction sources with
  | nil => exact ⟨[], rfl, fun _ hr => absurd hr List.not_mem_nil⟩
  | cons source rest ih =>
    obtain ⟨rules, rfl, hrules⟩ := ih fun s hs => h s (List.mem_cons_of_mem source hs)
    cases source with
    | rule r => exact ⟨r :: rules, rfl, List.forall_mem_cons.2 ⟨h _ List.mem_cons_self, hrules⟩⟩
    | other value => exact (h _ List.mem_cons_self).elim

end Source

namespace RuleSet

/-! ### What a set yields -/

def daysOf (ctx : Context) (answers : Answers) (sources : List Source) (dates : List LunarDate) :
    List LunarDay :=
  sources.flatMap (Source.days ctx answers) ++ LunarDate.days dates

def includedDays (ctx : Context) (answers : Answers) (s : RuleSet) : List LunarDay :=
  daysOf ctx answers s.rules s.dates

def excludedDays (ctx : Context) (answers : Answers) (s : RuleSet) : List LunarDay :=
  daysOf ctx answers s.exRules s.exDates

/-- All sources of a set are rules whose occurrences do not end in a failure. -/
structure IsSound (ctx : Context) (answers : Answers) (s : RuleSet) : Prop where
  rules : ∀ source ∈ s.rules, source.IsSound ctx answers
  exRules : ∀ source ∈ s.exRules, source.IsSound ctx answers

/-- Sound sources and dates have walks in increasing order, and these have their days. -/
theorem exists_walks {sources : List Source} (h : ∀ source ∈ sources, source.IsSound ctx answers)
    (dates : List LunarDate) :
    ∃ found, walks ctx sources dates = .ok found ∧
      (∀ walk ∈ found, walk.ending answers = none ∧ InOrder (walk.items answers)) ∧
      (LunarDate.days (found.flatMap (items answers))).Perm (daysOf ctx answers sources dates) := by
  obtain ⟨rules, rfl, hrules⟩ := Source.exists_rules h
  refine ⟨_, by rw [walks, Source.walks_rules]; rfl, fun walk hwalk => ?_, ?_⟩
  · rcases List.mem_append.1 hwalk with hrule | hdates
    · obtain ⟨r, hr, rfl⟩ := List.mem_map.1 hrule
      have hincrease := RuleOptions.occurrences_increase ctx answers r.options
      exact ⟨hrules r hr, hincrease.imp fun hlt => LunarDay.le_of_lt hlt⟩
    · rw [List.mem_singleton.1 hdates, ending_ofList, items_ofList]
      exact ⟨rfl, inOrder_sortDates dates⟩
  · have hdays : LunarDate.days ((rules.map fun r => r.options.occurrences ctx).flatMap
        (items answers)) = (rules.map Source.rule).flatMap (Source.days ctx answers) := by
      simp [LunarDate.days, List.map_flatMap, List.flatMap_map, Source.days, Source.walk]
    have hsorted : (items answers (ofList (sortDates dates))).Perm dates := by
      rw [items_ofList]
      exact List.mergeSort_perm dates _
    rw [List.flatMap_append, List.flatMap_singleton, LunarDate.days_append, hdays, daysOf]
    exact (days_perm hsorted).append_left _

/-- **A sound set has the days that it includes and does not exclude**, each once and in increasing
order. -/
theorem exists_occurrences {s : RuleSet} (h : s.IsSound ctx answers) :
    ∃ kept, Yields answers (s.occurrences ctx) kept ∧
      (LunarDate.days kept).Pairwise (· < ·) ∧
      ∀ day, day ∈ LunarDate.days kept ↔
        day ∈ s.includedDays ctx answers ∧ day ∉ s.excludedDays ctx answers := by
  obtain ⟨included, hincluded, hwalks, hdays⟩ := exists_walks h.rules s.dates
  obtain ⟨excluded, hexcluded, hexWalks, hexDays⟩ := exists_walks h.exRules s.exDates
  obtain ⟨kept, hyields, hincreasing, hmem⟩ := exists_yields_mergeExcept hwalks hexWalks
  refine ⟨kept, ?_, hincreasing, fun day => ?_⟩
  · rw [occurrences, hincluded, hexcluded]
    exact hyields
  · rw [hmem, hdays.mem_iff, hexDays.mem_iff, includedDays, excludedDays]

end RuleSet

/-! ### Additions -/

/-- Something to be added to a set. -/
inductive Addition where
  | rule (rule : Rule)
  | date (d : LunarDate)
  | exRule (rule : Rule)
  | exDate (d : LunarDate)

namespace Addition

def includedDays (ctx : Context) (answers : Answers) : Addition → List LunarDay
  | rule r => LunarDate.days ((r.options.occurrences ctx).items answers)
  | date d => [d.toLunarDay]
  | exRule _ | exDate _ => []

def excludedDays (ctx : Context) (answers : Answers) : Addition → List LunarDay
  | exRule r => LunarDate.days ((r.options.occurrences ctx).items answers)
  | exDate d => [d.toLunarDay]
  | rule _ | date _ => []

/-- The occurrences of an addition that is a rule do not end in a failure. -/
def IsSound (ctx : Context) (answers : Answers) : Addition → Prop
  | rule r | exRule r => (r.options.occurrences ctx).ending answers = none
  | date _ | exDate _ => True

end Addition

namespace RuleSet

def add (s : RuleSet) : Addition → RuleSet
  | .rule r => s.addRule r
  | .date d => s.addDate d
  | .exRule r => s.addExRule r
  | .exDate d => s.addExDate d

def addAll (s : RuleSet) (additions : List Addition) : RuleSet := additions.foldl add s

theorem isSound_empty (keepsMemo : Bool) : (empty keepsMemo).IsSound ctx answers :=
  ⟨fun _ h => absurd h List.not_mem_nil, fun _ h => absurd h List.not_mem_nil⟩

theorem IsSound.add {s : RuleSet} (hs : s.IsSound ctx answers) {a : Addition}
    (ha : a.IsSound ctx answers) : (s.add a).IsSound ctx answers := by
  cases a with
  | rule r =>
    exact ⟨List.forall_mem_append.2 ⟨hs.rules, List.forall_mem_singleton.2 ha⟩, hs.exRules⟩
  | exRule r =>
    exact ⟨hs.rules, List.forall_mem_append.2 ⟨hs.exRules, List.forall_mem_singleton.2 ha⟩⟩
  | date d => exact ⟨hs.rules, hs.exRules⟩
  | exDate d => exact ⟨hs.rules, hs.exRules⟩

theorem mem_daysOf_source {sources : List Source} {dates : List LunarDate} {r : Rule}
    {day : LunarDay} :
    day ∈ daysOf ctx answers (sources ++ [.rule r]) dates ↔ day ∈ daysOf ctx answers sources dates ∨
      day ∈ LunarDate.days ((r.options.occurrences ctx).items answers) := by
  simp only [daysOf, List.flatMap_append, List.flatMap_singleton, List.mem_append, Source.days,
    Source.walk]
  exact or_right_comm

theorem mem_daysOf_date {sources : List Source} {dates : List LunarDate} {d : LunarDate}
    {day : LunarDay} :
    day ∈ daysOf ctx answers sources (dates ++ [d]) ↔
      day ∈ daysOf ctx answers sources dates ∨ day ∈ [d.toLunarDay] := by
  simp only [daysOf, LunarDate.days_append, List.mem_append]
  exact or_assoc.symm

/-- An addition includes its days, whatever the set has already. -/
theorem mem_includedDays_add {s : RuleSet} {a : Addition} {day : LunarDay} :
    day ∈ (s.add a).includedDays ctx answers ↔
      day ∈ s.includedDays ctx answers ∨ day ∈ a.includedDays ctx answers := by
  cases a with
  | rule r => exact mem_daysOf_source
  | date d => exact mem_daysOf_date
  | exRule r => exact (or_iff_left List.not_mem_nil).symm
  | exDate d => exact (or_iff_left List.not_mem_nil).symm

/-- An addition excludes its days, whatever the set has already. -/
theorem mem_excludedDays_add {s : RuleSet} {a : Addition} {day : LunarDay} :
    day ∈ (s.add a).excludedDays ctx answers ↔
      day ∈ s.excludedDays ctx answers ∨ day ∈ a.excludedDays ctx answers := by
  cases a with
  | rule r => exact (or_iff_left List.not_mem_nil).symm
  | date d => exact (or_iff_left List.not_mem_nil).symm
  | exRule r => exact mem_daysOf_source
  | exDate d => exact mem_daysOf_date

/-- After a run of additions a set is sound, and its days are known from the additions. -/
theorem addAll_spec {s : RuleSet} (hs : s.IsSound ctx answers) {additions : List Addition}
    (h : ∀ a ∈ additions, a.IsSound ctx answers) :
    (s.addAll additions).IsSound ctx answers ∧
      (∀ day, day ∈ (s.addAll additions).includedDays ctx answers ↔
        day ∈ s.includedDays ctx answers ∨ ∃ a ∈ additions, day ∈ a.includedDays ctx answers) ∧
      ∀ day, day ∈ (s.addAll additions).excludedDays ctx answers ↔
        day ∈ s.excludedDays ctx answers ∨ ∃ a ∈ additions, day ∈ a.excludedDays ctx answers := by
  induction additions generalizing s with
  | nil => exact ⟨hs, by simp [addAll], by simp [addAll]⟩
  | cons a rest ih =>
    obtain ⟨hsound, hincluded, hexcluded⟩ :=
      ih (hs.add (h a List.mem_cons_self)) fun b hb => h b (List.mem_cons_of_mem a hb)
    refine ⟨hsound, fun day => (hincluded day).trans ?_, fun day => (hexcluded day).trans ?_⟩
    · simp [mem_includedDays_add, or_assoc]
    · simp [mem_excludedDays_add, or_assoc]

def firstDays : RuleOptions where
  frequency := .monthly
  start := { year := 1446, month := 1, day := 1, variant := .tabular }
  count := some 3
  monthDays := [1]
  variant := .tabular

/-- The first days of three months, the second of them excluded and then added once more, and a day
in between in either calendar. -/
def firstDaysAndAnother : List Addition := [
  .rule { options := firstDays },
  .exDate { year := 1446, month := 2, day := 1, hour := 12, variant := .ummAlQura },
  .date { year := 1446, month := 2, day := 1, variant := .tabular },
  .date { year := 1446, month := 1, day := 15, hour := 9, variant := .ummAlQura },
  .date { year := 1446, month := 1, day := 15, variant := .tabular }
]

end RuleSet

end HijriRecurrence
