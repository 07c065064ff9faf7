import HijriRecurrence.Lenient.Recurrence
import HijriRecurrence.Proofs.Occurrence.Exclude
import HijriRecurrence.Proofs.Occurrence.Query
import HijriRecurrence.Proofs.Rule.Increasing

/-!
# The order of occurrences

What a rule or a set of rules yields is in strictly increasing order (`Recurrence.increasing`).

Nothing is asked of the excluding side, which is looked at only as far as the included one goes and
may fail after that.  The included side is passed to its end when the set is (`ending_exclude`,
`ending_merge`); so none of its walks fails, and what is merged from them is in order.
-/

namespace HijriRecurrence

open LunarDate

namespace Occurrences

variable {α β : Type} {answers : Answers}

theorem yields_after_iff {c : Calculation β} {f : β → Occurrences α} {list : List α} :
    Yields answers (after c f) list ↔
      ∃ b, c.outcome answers = .ok b ∧ Yields answers (f b) list := by
  constructor
  · intro h
    have hending := h.ending
    have hitems := h.items
    rw [ending_after] at hending
    rw [items_after] at hitems
    cases hc : c.outcome answers with
    | error e =>
      rw [hc] at hending
      cases hending
    | ok b =>
      rw [hc] at hending hitems
      exact ⟨b, rfl, hending, hitems⟩
  · intro h
    obtain ⟨b, hc, hb⟩ := h
    exact hb.after hc

/-! ### What a walk to the end has passed -/

theorem ending_mergeHead {first : Prop} {head : LunarDate}
    {others : Occurrences LunarDate → Occurrences LunarDate}
    (hothers : ∀ walk, (others walk).ending answers = none →
      first ∧ walk.ending answers = none)
    {second : Occurrences LunarDate} (h : (mergeHead head others second).ending answers = none) :
    first ∧ second.ending answers = none := by
  induction second with
  | done => exact hothers done h
  | failed e => cases h
  | item next rest ih =>
    rw [mergeHead] at h
    split at h
    · exact ih () h
    · exact hothers (item next rest) h
  | ask inquiry next ih => exact ih (answers inquiry) h

/-- A merge of two walks that does not fail has passed both to the end. -/
theorem ending_merge2 {first second : Occurrences LunarDate}
    (h : (merge2 first second).ending answers = none) :
    first.ending answers = none ∧ second.ending answers = none := by
  induction first generalizing second with
  | done => exact ⟨rfl, h⟩
  | failed e => cases h
  | item head rest ih => exact ending_mergeHead (fun walk hwalk => ih () hwalk) h
  | ask inquiry next ih => exact ih (answers inquiry) h

/-- A merge that does not fail has passed all its walks to the end. -/
theorem ending_merge {walks : List (Occurrences LunarDate)}
    (h : (merge walks).ending answers = none) : ∀ walk ∈ walks, walk.ending answers = none := by
  induction walks with
  | nil =>
    intro walk hwalk
    exact absurd hwalk List.not_mem_nil
  | cons first rest ih =>
    obtain ⟨hfirst, hrest⟩ := ending_merge2 h
    exact List.forall_mem_cons.2 ⟨hfirst, ih hrest⟩

/-- A sweep that does not fail has passed its included walk to the end. -/
theorem ending_exclude {included excluded : Occurrences LunarDate} {last : Option String}
    (h : (exclude included last excluded).ending answers = none) :
    included.ending answers = none := by
  induction included generalizing last excluded with
  | done => rfl
  | failed e => cases h
  | item head rest ih =>
    rw [exclude] at h
    split at h
    · exact ih () h
    · rw [ending_after] at h
      split at h
      · split at h
        · exact ih () h
        · exact ih () h
      · cases h
  | ask inquiry next ih => exact ih (answers inquiry) h

/-! ### What a sweep keeps -/

/-- The dates that a sweep keeps are in strictly increasing order, are included, and are not on the
day looked at last. -/
structure Sweeps (included kept : List LunarDate) (last : Option LunarDay) : Prop where
  increasing : Increasing kept
  mem : ∀ d ∈ kept, d ∈ included ∧ last ≠ some d.toLunarDay

theorem sweeps_nil (included : List LunarDate) (last : Option LunarDay) :
    Sweeps included [] last :=
  ⟨List.Pairwise.nil, fun _ hd => absurd hd List.not_mem_nil⟩

/-- What is kept behind a head is after the head, and not on a day before it. -/
theorem Sweeps.lt_of_mem {head : LunarDate} {rest kept : List LunarDate} {last : Option LunarDay}
    (horder : InOrder (head :: rest)) (hlast : ∀ l ∈ last, l ≤ head.toLunarDay)
    (h : Sweeps rest kept (some head.toLunarDay)) {d : LunarDate} (hd : d ∈ kept) :
    head.toLunarDay < d.toLunarDay ∧ last ≠ some d.toLunarDay := by
  obtain ⟨hmem, hne⟩ := h.mem d hd
  have hle := (List.pairwise_cons.1 horder).1 d hmem
  have hlt : head.toLunarDay < d.toLunarDay := by
    rcases LunarDay.lt_or_eq_of_le hle with hlt | heq
    · exact hlt
    · exact absurd (congrArg some heq) hne
  refine ⟨hlt, ?_⟩
  intro heq
  exact LunarDay.lt_irrefl _ (LunarDay.lt_of_lt_of_le hlt (hlast _ heq))

/-- A sweep along dates in order keeps each day once, whatever is excluded. -/
theorem sweeps_exclude {included : Occurrences LunarDate} (excluded : Occurrences LunarDate)
    (last : Option LunarDay) (horder : InOrder (included.items answers))
    (hlast : ∀ l ∈ last, ∀ d ∈ included.items answers, l ≤ d.toLunarDay) :
    Sweeps (included.items answers)
      ((exclude included (last.map LunarDay.text) excluded).items answers) last := by
  induction included generalizing last excluded with
  | done => exact sweeps_nil [] last
  | failed e => exact sweeps_nil [] last
  | item head rest ih =>
    obtain ⟨hhead, hrest⟩ := List.pairwise_cons.1 horder
    have htext : last.map LunarDay.text = some head.text ↔ last = some head.toLunarDay :=
      (Option.map_injective LunarDay.text_injective).eq_iff (b := some head.toLunarDay)
    have hlater : ∀ l ∈ some head.toLunarDay, ∀ d ∈ (rest ()).items answers,
        l ≤ d.toLunarDay := by
      rintro l ⟨⟩
      exact hhead
    have hbefore : ∀ l ∈ last, l ≤ head.toLunarDay := by
      intro l hl
      exact hlast l hl head List.mem_cons_self
    rw [exclude]
    by_cases hrepeated : last = some head.toLunarDay
    · rw [if_pos (htext.2 hrepeated)]
      have hswept := ih () excluded last hrest (hrepeated ▸ hlater)
      refine ⟨hswept.increasing, fun d hd => ?_⟩
      exact ⟨List.mem_cons_of_mem head (hswept.mem d hd).1, (hswept.mem d hd).2⟩
    · rw [if_neg (mt htext.1 hrepeated), items_after]
      cases (excluded.dropWhile fun d => decide (d.toLunarDay < head.toLunarDay)).outcome
        answers with
      | error e => exact sweeps_nil _ last
      | ok left =>
        have hswept := ih () left (some head.toLunarDay) hrest hlater
        dsimp only
        split
        · refine ⟨hswept.increasing, fun d hd => ?_⟩
          exact ⟨List.mem_cons_of_mem head (hswept.mem d hd).1,
            (hswept.lt_of_mem horder hbefore hd).2⟩
        · refine ⟨List.pairwise_cons.2 ⟨fun d hd => ?_, hswept.increasing⟩, fun d hd => ?_⟩
          · exact (hswept.lt_of_mem horder hbefore hd).1
          · rcases List.mem_cons.1 hd with rfl | hd
            · exact ⟨List.mem_cons_self, hrepeated⟩
            · exact ⟨List.mem_cons_of_mem head (hswept.mem d hd).1,
                (hswept.lt_of_mem horder hbefore hd).2⟩
  | ask inquiry next ih => exact ih (answers inquiry) excluded last horder hlast

/-- What the merge of included walks in order leaves is in strictly increasing order, whatever is
excluded. -/
theorem increasing_mergeExcept {included excluded : List (Occurrences LunarDate)}
    (hincluded : ∀ walk ∈ included, InOrder (walk.items answers)) {dates : List LunarDate}
    (h : Yields answers (mergeExcept included excluded) dates) : Increasing dates := by
  obtain ⟨left, -, hyields⟩ := yields_after_iff.1 h
  have hendings := ending_merge (ending_exclude hyields.ending)
  obtain ⟨merged, hmerged, horder, -⟩ := exists_yields_merge
    fun walk hwalk => ⟨hendings walk hwalk, hincluded walk hwalk⟩
  have hswept : Sweeps ((merge included).items answers)
      ((exclude (merge included) none left).items answers) none :=
    sweeps_exclude left none (hmerged.items ▸ horder) (by simp)
  rw [← hyields.items]
  exact hswept.increasing

end Occurrences

open Occurrences

variable {ctx : Context} {answers : Answers}

namespace Source

theorem exists_rules_of_all {sources : List Source} (h : sources.all isRule = true) :
    ∃ rules : List Rule, sources = rules.map rule := by
  induction sources with
  | nil => exact ⟨[], rfl⟩
  | cons source rest ih =>
    obtain ⟨hsource, hrest⟩ := Bool.and_eq_true_iff.1 h
    obtain ⟨rules, rfl⟩ := ih hrest
    cases source with
    | rule r => exact ⟨r :: rules, rfl⟩
    | other value => cases hsource

end Source

namespace RuleSet

/-- The walks of rules and dates are in order. -/
theorem inOrder_of_mem_walks {rules : List Rule} {dates : List LunarDate}
    {found : List (Occurrences LunarDate)}
    (h : walks ctx (rules.map Source.rule) dates = .ok found) :
    ∀ walk ∈ found, InOrder (walk.items answers) := by
  rw [walks, Source.walks_rules] at h
  obtain rfl := Except.ok.inj h
  intro walk hwalk
  rcases List.mem_append.1 hwalk with hrule | hdates
  · obtain ⟨r, -, rfl⟩ := List.mem_map.1 hrule
    have hincrease := RuleOptions.occurrences_increase ctx answers r.options
    exact hincrease.imp fun hlt => LunarDay.le_of_lt hlt
  · rw [List.mem_singleton.1 hdates, items_ofList]
    exact inOrder_sortDates dates

/-- The occurrences of a set of rules are in strictly increasing order. -/
theorem increasing {s : RuleSet} (hrules : s.hasOnlyRules = true) {dates : List LunarDate}
    (h : Yields answers (s.occurrences ctx) dates) : Increasing dates := by
  rw [hasOnlyRules, List.all_append, Bool.and_eq_true_iff] at hrules
  obtain ⟨rules, heq⟩ := Source.exists_rules_of_all hrules.1
  rw [occurrences, heq] at h
  cases hincluded : walks ctx (rules.map Source.rule) s.dates with
  | error e =>
    rw [hincluded] at h
    exact absurd h (not_yields_failed e)
  | ok included =>
    rw [hincluded] at h
    cases hexcluded : walks ctx s.exRules s.exDates with
    | error e =>
      rw [hexcluded] at h
      exact absurd h (not_yields_failed e)
    | ok excluded =>
      rw [hexcluded] at h
      exact increasing_mergeExcept (inOrder_of_mem_walks hincluded) h

end RuleSet

namespace Recurrence

/-- **The occurrences of a rule or a set of rules are in strictly increasing order.** -/
theorem increasing {r : Recurrence} (hrules : r.hasOnlyDates = true) {dates : List LunarDate}
    (h : Yields answers (r.occurrences ctx) dates) : Increasing dates := by
  cases r with
  | rule r =>
    rw [← h.items]
    exact RuleOptions.occurrences_increase ctx answers r.options
  | set s => exact s.increasing hrules h

end Recurrence

end HijriRecurrence
