import HijriRecurrence.Proofs.Lunar.Text
import HijriRecurrence.Proofs.Occurrence.Merge

/-!
# What is left without the excluded days

A walk in increasing order, swept together with an excluding walk in increasing order, yields each
of its days once, except those that the excluding walk has (`exists_yields_exclude`).

The sweep knows the day looked at last by its text alone, and of the excluding walk only what is
not before that day.  Neither loses anything: a text belongs to one day, and an excluded day that
was passed over is before every day still to come (`mem_days_leftFrom`).
-/

namespace HijriRecurrence

def LunarDate.days (dates : List LunarDate) : List LunarDay := dates.map (·.toLunarDay)

/-- Some dates without those in front that are before a day. -/
def LunarDate.leftFrom (bound : LunarDay) (dates : List LunarDate) : List LunarDate :=
  dates.dropWhile fun d => decide (d.toLunarDay < bound)

namespace LunarDate

@[simp] theorem days_nil : days [] = [] := rfl

@[simp] theorem days_cons (d : LunarDate) (dates : List LunarDate) :
    days (d :: dates) = d.toLunarDay :: days dates := rfl

theorem days_append (dates others : List LunarDate) :
    days (dates ++ others) = days dates ++ days others := List.map_append

theorem days_perm {dates others : List LunarDate} (h : dates.Perm others) :
    (days dates).Perm (days others) := h.map _

theorem InOrder.le {d : LunarDate} {dates : List LunarDate} (h : InOrder (d :: dates))
    {day : LunarDay} (hday : day ∈ days dates) : d.toLunarDay ≤ day := by
  obtain ⟨e, he, rfl⟩ := List.mem_map.1 hday
  exact (List.pairwise_cons.1 h).1 e he

theorem InOrder.leftFrom {dates : List LunarDate} (h : InOrder dates) (bound : LunarDay) :
    InOrder (leftFrom bound dates) := h.sublist (List.dropWhile_sublist _)

/-- Days before a bound are passed over, and no others. -/
theorem mem_days_leftFrom {dates : List LunarDate} (h : InOrder dates) {bound day : LunarDay} :
    day ∈ days (leftFrom bound dates) ↔ day ∈ days dates ∧ bound ≤ day := by
  unfold leftFrom
  induction dates with
  | nil => simp
  | cons d rest ih =>
    rw [List.dropWhile_cons]
    by_cases hlt : d.toLunarDay < bound
    · rw [if_pos (decide_eq_true hlt), ih (List.pairwise_cons.1 h).2, days_cons, List.mem_cons]
      constructor
      · rintro ⟨hmem, hle⟩
        exact ⟨Or.inr hmem, hle⟩
      · rintro ⟨rfl | hmem, hle⟩
        · exact absurd hlt hle
        · exact ⟨hmem, hle⟩
    · rw [if_neg (by simpa using hlt)]
      refine ⟨fun hmem => ⟨hmem, ?_⟩, And.left⟩
      rcases List.mem_cons.1 hmem with rfl | hmem
      · exact hlt
      · exact LunarDay.le_trans hlt (h.le hmem)

/-- What is left from a bound on starts with the bound exactly when the bound was there. -/
theorem head_leftFrom_iff {dates : List LunarDate} (h : InOrder dates) {bound : LunarDay} :
    (∃ d ∈ (leftFrom bound dates).head?, d.toLunarDay = bound) ↔ bound ∈ days dates := by
  have hmem : ∀ day, day ∈ days (leftFrom bound dates) ↔ day ∈ days dates ∧ bound ≤ day := by
    intro day
    exact mem_days_leftFrom h
  have horder := h.leftFrom bound
  generalize leftFrom bound dates = left at hmem horder
  constructor
  · rintro ⟨d, hd, rfl⟩
    exact ((hmem _).1 (List.mem_map_of_mem (List.mem_of_mem_head? hd))).1
  · intro hbound
    have hleft := (hmem bound).2 ⟨hbound, LunarDay.le_refl bound⟩
    cases left with
    | nil => exact absurd hleft List.not_mem_nil
    | cons d rest =>
      have hle : bound ≤ d.toLunarDay := ((hmem _).1 List.mem_cons_self).2
      refine ⟨d, rfl, ?_⟩
      rcases List.mem_cons.1 hleft with heq | hrest
      · exact heq.symm
      · exact LunarDay.le_antisymm (horder.le hrest) hle

/-! ### What a sweep leaves -/

/-- What a sweep over some dates leaves of them when other dates are excluded: each day once, unless
it is excluded or is the day looked at last. -/
structure Leaves (dates others : List LunarDate) (last : Option LunarDay)
    (kept : List LunarDate) : Prop where
  increasing : (days kept).Pairwise (· < ·)
  mem_iff : ∀ day, day ∈ days kept ↔ (day ∈ days dates ∧ last ≠ some day) ∧ day ∉ days others

section Leaves

variable {head : LunarDate} {dates others kept : List LunarDate} {last : Option LunarDay}

theorem leaves_nil : Leaves [] others last [] := ⟨List.Pairwise.nil, by simp⟩

/-- A day that has been looked at is not looked at again. -/
theorem Leaves.repeated (h : Leaves dates others (some head.toLunarDay) kept) :
    Leaves (head :: dates) others (some head.toLunarDay) kept := by
  refine ⟨h.increasing, fun day => (h.mem_iff day).trans ?_⟩
  constructor
  · rintro ⟨⟨hday, hne⟩, hnot⟩
    exact ⟨⟨List.mem_cons_of_mem _ hday, hne⟩, hnot⟩
  · rintro ⟨⟨hday, hne⟩, hnot⟩
    rcases List.mem_cons.1 hday with rfl | hday
    · exact absurd rfl hne
    · exact ⟨⟨hday, hne⟩, hnot⟩

/-- Behind the head of a sweep no excluded day is missing, and neither the day of the head nor the
day looked at before it comes again. -/
theorem Leaves.mem_behind (hdates : InOrder (head :: dates)) (hothers : InOrder others)
    (hlast : ∀ l ∈ last, l ≤ head.toLunarDay)
    (h : Leaves dates (leftFrom head.toLunarDay others) (some head.toLunarDay) kept)
    (day : LunarDay) :
    day ∈ days kept ↔ day ≠ head.toLunarDay ∧
      (day ∈ days (head :: dates) ∧ last ≠ some day) ∧ day ∉ days others := by
  rw [h.mem_iff, mem_days_leftFrom hothers]
  constructor
  · rintro ⟨⟨hday, hne⟩, hnot⟩
    have hle := hdates.le hday
    have hneq : day ≠ head.toLunarDay := by
      intro heq
      exact hne (heq ▸ rfl)
    refine ⟨hneq, ⟨List.mem_cons_of_mem _ hday, fun hl => ?_⟩, fun ho => hnot ⟨ho, hle⟩⟩
    exact hneq (LunarDay.le_antisymm (hlast day hl) hle)
  · rintro ⟨hneq, ⟨hday, -⟩, hnot⟩
    rcases List.mem_cons.1 hday with heq | hday
    · exact absurd heq hneq
    · exact ⟨⟨hday, fun heq => hneq (Option.some.inj heq).symm⟩, fun ho => hnot ho.1⟩

/-- A head on an excluded day is passed over. -/
theorem Leaves.passOver (hdates : InOrder (head :: dates)) (hothers : InOrder others)
    (hlast : ∀ l ∈ last, l ≤ head.toLunarDay) (hexcluded : head.toLunarDay ∈ days others)
    (h : Leaves dates (leftFrom head.toLunarDay others) (some head.toLunarDay) kept) :
    Leaves (head :: dates) others last kept := by
  refine ⟨h.increasing, fun day => (h.mem_behind hdates hothers hlast day).trans ?_⟩
  exact ⟨And.right, fun hday => ⟨fun heq => hday.2 (heq ▸ hexcluded), hday⟩⟩

/-- A head on a new day that is not excluded is kept. -/
theorem Leaves.keep (hdates : InOrder (head :: dates)) (hothers : InOrder others)
    (hlast : ∀ l ∈ last, l ≤ head.toLunarDay) (hexcluded : head.toLunarDay ∉ days others)
    (hnew : last ≠ some head.toLunarDay)
    (h : Leaves dates (leftFrom head.toLunarDay others) (some head.toLunarDay) kept) :
    Leaves (head :: dates) others last (head :: kept) := by
  refine ⟨List.pairwise_cons.2 ⟨fun day hday => ?_, h.increasing⟩, fun day => ?_⟩
  · obtain ⟨⟨hlater, hne⟩, -⟩ := (h.mem_iff day).1 hday
    rcases LunarDay.lt_or_eq_of_le (hdates.le hlater) with hlt | heq
    · exact hlt
    · exact absurd (congrArg some heq) hne
  · rw [days_cons, List.mem_cons, h.mem_behind hdates hothers hlast]
    constructor
    · rintro (rfl | ⟨-, hday⟩)
      · exact ⟨⟨List.mem_cons_self, hnew⟩, hexcluded⟩
      · exact hday
    · intro hday
      by_cases heq : day = head.toLunarDay
      · exact Or.inl heq
      · exact Or.inr ⟨heq, hday⟩

end Leaves

end LunarDate

namespace Occurrences

open LunarDate

variable {answers : Answers}

/-- Passing over occurrences of a walk leads to an occurrence or to the end. -/
theorem exists_outcome_dropWhile (p : LunarDate → Bool) {walk : Occurrences LunarDate}
    {list : List LunarDate} (h : Yields answers walk list) :
    ∃ left, (walk.dropWhile p).outcome answers = .ok left ∧
      Yields answers left (list.dropWhile p) ∧
      ∀ day, left.isAt day = true ↔ ∃ d ∈ (list.dropWhile p).head?, d.toLunarDay = day := by
  induction walk generalizing list with
  | done =>
    obtain rfl := yields_done_iff.1 h
    exact ⟨done, rfl, yields_done, by simp [isAt]⟩
  | failed e => exact absurd h (not_yields_failed e)
  | item head rest ih =>
    obtain ⟨later, rfl, hlater⟩ := yields_item_iff.1 h
    rw [dropWhile, List.dropWhile_cons]
    split
    · exact ih () hlater
    · exact ⟨item head rest, rfl, h, by simp [isAt]⟩
  | ask inquiry next ih => exact ih (answers inquiry) (yields_ask_iff.1 h)

/-- **A sweep of walks in order leaves each included day once, without the excluded days.**  `last`
is the day looked at last. -/
theorem exists_yields_exclude {included excluded : Occurrences LunarDate}
    {dates others : List LunarDate} (h : Yields answers included dates)
    (k : Yields answers excluded others) (hdates : InOrder dates) (hothers : InOrder others)
    {last : Option LunarDay} (hlast : ∀ l ∈ last, ∀ d ∈ dates, l ≤ d.toLunarDay) :
    ∃ kept, Yields answers (exclude included (last.map LunarDay.text) excluded) kept ∧
      Leaves dates others last kept := by
  induction included generalizing dates excluded others last with
  | done =>
    obtain rfl := yields_done_iff.1 h
    exact ⟨[], yields_done, leaves_nil⟩
  | failed e => exact absurd h (not_yields_failed e)
  | item head rest ih =>
    obtain ⟨later, rfl, hlater⟩ := yields_item_iff.1 h
    obtain ⟨hhead, horder⟩ := List.pairwise_cons.1 hdates
    have htext : last.map LunarDay.text = some head.text ↔ last = some head.toLunarDay :=
      (Option.map_injective LunarDay.text_injective).eq_iff (b := some head.toLunarDay)
    rw [exclude]
    by_cases hrepeated : last = some head.toLunarDay
    · rw [if_pos (htext.2 hrepeated)]
      obtain ⟨kept, hyields, hleaves⟩ := ih () hlater k horder hothers
        fun l hl d hd => hlast l hl d (List.mem_cons_of_mem head hd)
      rw [hrepeated] at hyields hleaves ⊢
      exact ⟨kept, hyields, hleaves.repeated⟩
    · rw [if_neg (mt htext.1 hrepeated)]
      obtain ⟨left, hleft, hyieldsLeft, hisAt⟩ :=
        exists_outcome_dropWhile (fun d => decide (d.toLunarDay < head.toLunarDay)) k
      have hnext : ∀ l ∈ some head.toLunarDay, ∀ d ∈ later, l ≤ d.toLunarDay := by
        rintro l ⟨⟩
        exact hhead
      obtain ⟨kept, hyields, hleaves⟩ :=
        ih () hlater hyieldsLeft horder (hothers.leftFrom head.toLunarDay) hnext
      have hbefore : ∀ l ∈ last, l ≤ head.toLunarDay := by
        intro l hl
        exact hlast l hl head List.mem_cons_self
      have hat : left.isAt head.toLunarDay = true ↔ head.toLunarDay ∈ days others :=
        (hisAt _).trans (head_leftFrom_iff hothers)
      by_cases hexcluded : head.toLunarDay ∈ days others
      · refine ⟨kept, Yields.after hleft ?_, hleaves.passOver hdates hothers hbefore hexcluded⟩
        rw [if_pos (hat.2 hexcluded)]
        exact hyields
      · refine ⟨head :: kept, Yields.after hleft ?_,
          hleaves.keep hdates hothers hbefore hexcluded hrepeated⟩
        rw [if_neg (mt hat.1 hexcluded), yields_item_iff]
        exact ⟨kept, rfl, hyields⟩
  | ask inquiry next ih =>
    obtain ⟨kept, hyields, hkept⟩ :=
      ih (answers inquiry) (yields_ask_iff.1 h) k hdates hothers hlast
    exact ⟨kept, yields_ask_iff.2 hyields, hkept⟩

/-- What the merge of included walks leaves without the excluding walks. -/
theorem exists_yields_mergeExcept {included excluded : List (Occurrences LunarDate)}
    (h : ∀ walk ∈ included, walk.ending answers = none ∧ InOrder (walk.items answers))
    (k : ∀ walk ∈ excluded, walk.ending answers = none ∧ InOrder (walk.items answers)) :
    ∃ kept, Yields answers (mergeExcept included excluded) kept ∧
      (days kept).Pairwise (· < ·) ∧
      ∀ day, day ∈ days kept ↔ day ∈ days (included.flatMap (items answers)) ∧
        day ∉ days (excluded.flatMap (items answers)) := by
  obtain ⟨dates, hdates, hdatesOrder, hdatesPerm⟩ := exists_yields_merge h
  obtain ⟨others, hothers, hothersOrder, hothersPerm⟩ := exists_yields_merge k
  obtain ⟨left, hleft, hyieldsLeft, -⟩ := exists_outcome_dropWhile (fun _ => false) hothers
  have hall : others.dropWhile (fun _ => false) = others := by
    cases others <;> rfl
  rw [hall] at hyieldsLeft
  have hnone : ∀ l ∈ (none : Option LunarDay), ∀ d ∈ dates, l ≤ d.toLunarDay := by simp
  obtain ⟨kept, hyields, hleaves⟩ :=
    exists_yields_exclude hdates hyieldsLeft hdatesOrder hothersOrder hnone
  refine ⟨kept, Yields.after hleft hyields, hleaves.increasing, ?_⟩
  intro day
  rw [hleaves.mem_iff, (days_perm hdatesPerm).mem_iff, (days_perm hothersPerm).mem_iff]
  simp

end Occurrences

end HijriRecurrence
