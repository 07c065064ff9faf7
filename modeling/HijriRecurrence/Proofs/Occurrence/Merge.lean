import HijriRecurrence.Occurrence.Merge
import HijriRecurrence.Proofs.Lunar.Order
import HijriRecurrence.Proofs.Occurrence.Stream

/-!
# What a merge yields

Walks that do not fail are merged as lists are: two of them yield the merge of what they yield
(`yields_merge2`), and any number of them in increasing order yield all of their occurrences in
increasing order (`exists_yields_merge`).
-/

namespace HijriRecurrence

/-- Whether the first of two dates may stand in front of the second one. -/
def LunarDate.isUpTo (a b : LunarDate) : Bool := decide (a.toLunarDay ≤ b.toLunarDay)

/-- Dates in increasing order, days repeated or not. -/
def LunarDate.InOrder (dates : List LunarDate) : Prop :=
  dates.Pairwise fun a b => a.toLunarDay ≤ b.toLunarDay

namespace LunarDate

theorem isUpTo_trans (a b c : LunarDate) (h : a.isUpTo b) (k : b.isUpTo c) : a.isUpTo c := by
  simp only [isUpTo, decide_eq_true_eq] at *
  exact LunarDay.le_trans h k

theorem isUpTo_total (a b : LunarDate) : a.isUpTo b || b.isUpTo a := by
  simp only [isUpTo, Bool.or_eq_true, decide_eq_true_eq]
  exact LunarDay.le_total a.toLunarDay b.toLunarDay

theorem inOrder_iff {dates : List LunarDate} :
    InOrder dates ↔ dates.Pairwise fun a b => a.isUpTo b = true := by
  simp only [InOrder, isUpTo, decide_eq_true_eq]

theorem inOrder_merge {dates others : List LunarDate} (h : InOrder dates) (k : InOrder others) :
    InOrder (dates.merge others isUpTo) := by
  rw [inOrder_iff] at *
  exact List.pairwise_merge isUpTo_trans isUpTo_total dates others h k

theorem inOrder_sortDates (dates : List LunarDate) : InOrder (sortDates dates) :=
  inOrder_iff.2 (List.pairwise_mergeSort isUpTo_trans isUpTo_total dates)

end LunarDate

namespace Occurrences

open LunarDate

variable {answers : Answers}

/-- The merge of a walk that is at an occurrence, when the merge of what is left of it is known. -/
theorem yields_mergeHead {head : LunarDate} {others : Occurrences LunarDate → Occurrences LunarDate}
    {rest : List LunarDate}
    (hothers : ∀ {walk list}, Yields answers walk list →
      Yields answers (others walk) (rest.merge list isUpTo))
    {second : Occurrences LunarDate} {list : List LunarDate} (h : Yields answers second list) :
    Yields answers (mergeHead head others second) ((head :: rest).merge list isUpTo) := by
  induction second generalizing list with
  | done =>
    obtain rfl := yields_done_iff.1 h
    rw [mergeHead, List.merge_right, yields_item_iff]
    exact ⟨rest, rfl, by simpa using hothers yields_done⟩
  | failed e => exact absurd h (not_yields_failed e)
  | item next following ih =>
    obtain ⟨later, rfl, hlater⟩ := yields_item_iff.1 h
    rw [mergeHead, List.cons_merge_cons]
    by_cases hlt : next.toLunarDay < head.toLunarDay
    · have hnot : ¬head.isUpTo next = true := by simpa [isUpTo, LunarDay.le_def] using hlt
      rw [if_pos hlt, if_neg hnot, yields_item_iff]
      exact ⟨_, rfl, ih () hlater⟩
    · have hle : head.isUpTo next = true := by simpa [isUpTo, LunarDay.le_def] using hlt
      rw [if_neg hlt, if_pos hle, yields_item_iff]
      exact ⟨_, rfl, hothers h⟩
  | ask inquiry next ih => exact yields_ask_iff.2 (ih (answers inquiry) (yields_ask_iff.1 h))

/-- Two walks yield the merge of what they yield. -/
theorem yields_merge2 {first second : Occurrences LunarDate} {list others : List LunarDate}
    (h : Yields answers first list) (k : Yields answers second others) :
    Yields answers (merge2 first second) (list.merge others isUpTo) := by
  induction first generalizing list second others with
  | done =>
    obtain rfl := yields_done_iff.1 h
    rw [merge2, List.nil_merge]
    exact k
  | failed e => exact absurd h (not_yields_failed e)
  | item head rest ih =>
    obtain ⟨later, rfl, hlater⟩ := yields_item_iff.1 h
    exact yields_mergeHead (fun hwalk => ih () hlater hwalk) k
  | ask inquiry next ih =>
    exact yields_ask_iff.2 (ih (answers inquiry) (yields_ask_iff.1 h) k)

/-- **Walks in increasing order are merged into one**, which has all their occurrences. -/
theorem exists_yields_merge {walks : List (Occurrences LunarDate)}
    (h : ∀ walk ∈ walks, walk.ending answers = none ∧ InOrder (walk.items answers)) :
    ∃ merged, Yields answers (merge walks) merged ∧ InOrder merged ∧
      merged.Perm (walks.flatMap (items answers)) := by
  induction walks with
  | nil => exact ⟨[], yields_done, List.Pairwise.nil, List.Perm.refl _⟩
  | cons walk rest ih =>
    obtain ⟨hending, horder⟩ := h walk List.mem_cons_self
    obtain ⟨merged, hyields, hmerged, hperm⟩ := ih fun w hw => h w (List.mem_cons_of_mem walk hw)
    refine ⟨(walk.items answers).merge merged isUpTo, yields_merge2 ⟨hending, rfl⟩ hyields,
      inOrder_merge horder hmerged, ?_⟩
    rw [List.flatMap_cons]
    exact (List.merge_perm_append isUpTo).trans (hperm.append_left _)

end Occurrences

end HijriRecurrence
