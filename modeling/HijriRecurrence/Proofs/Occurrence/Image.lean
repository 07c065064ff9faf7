import HijriRecurrence.Occurrence.Merge

/-!
# Walks whose occurrences are changed

Merging and excluding look at the days of dates and at nothing else.  So a change of dates that
keeps their days can be made before or after: the walks are the same, question by question
(`mergeExcept_map`).
-/

namespace HijriRecurrence

/-- A change of dates that leaves every day as it is. -/
def LunarDate.KeepsDays (f : LunarDate → LunarDate) : Prop :=
  ∀ d, (f d).toLunarDay = d.toLunarDay

/-- Sorting looks at days alone. -/
theorem LunarDate.sortDates_map {f : LunarDate → LunarDate} (hf : KeepsDays f)
    (dates : List LunarDate) : sortDates (dates.map f) = (sortDates dates).map f := by
  refine (List.map_mergeSort fun a _ b _ => ?_).symm
  rw [hf a, hf b]

namespace Occurrences

variable {α β γ : Type}

/-! ### Any walk -/

/-- The occurrences after a calculation are changed after it. -/
theorem map_after (c : Calculation β) (next : β → Occurrences α) (f : α → γ) :
    (after c next).map f = after c fun b => (next b).map f := by
  rw [after_eq, after_eq]
  induction c with
  | done b => rfl
  | failed e => rfl
  | ask inquiry answer ih => exact congrArg (ask inquiry) (funext ih)

/-- A walk goes on from a changed result as from the result itself. -/
theorem after_map (c : Calculation β) (g : β → γ) (next : γ → Occurrences α) :
    after (g <$> c) next = after c fun b => next (g b) := by
  rw [← bind_pure_comp, after_eq, after_eq]
  show afterAsking next (c.bind fun b => pure (g b)) = _
  induction c with
  | done b => rfl
  | failed e => rfl
  | ask inquiry answer ih => exact congrArg (ask inquiry) (funext ih)

/-- Calculated occurrences that a change leaves alone stay as they are. -/
theorem map_yieldAll {make : β → Calculation α} {f : α → α} (hmake : ∀ b, f <$> make b = make b)
    (entries : List β) (following : Unit → Occurrences α) :
    (yieldAll make entries following).map f = yieldAll make entries fun u => (following u).map f := by
  induction entries with
  | nil => rfl
  | cons b rest ih =>
    have hhead : (after (make b) fun head => item (f head) fun _ =>
        yieldAll make rest fun u => (following u).map f) =
          yieldAll make (b :: rest) fun u => (following u).map f := by
      rw [← after_map (make b) f fun head => item head fun _ =>
        yieldAll make rest fun u => (following u).map f, hmake]
      rfl
    rw [yieldAll, map_after, ← hhead]
    simp only [map, ih]

theorem ofList_map (f : α → β) (list : List α) : ofList (list.map f) = (ofList list).map f := by
  induction list with
  | nil => rfl
  | cons head rest ih => exact congrArg (item (f head)) (funext fun _ => ih)

/-- Changed occurrences are passed over when they would be after the change. -/
theorem dropWhile_map (f : α → β) (p : β → Bool) (walk : Occurrences α) :
    (walk.map f).dropWhile p = map f <$> walk.dropWhile fun a => p (f a) := by
  induction walk with
  | done => rfl
  | failed e => rfl
  | item head rest ih =>
    rw [map, dropWhile, dropWhile]
    split
    · exact ih ()
    · rfl
  | ask inquiry next ih => exact congrArg (Calculation.ask inquiry) (funext ih)

/-! ### Walks along dates -/

variable {f : LunarDate → LunarDate}

theorem mergeHead_map (hf : LunarDate.KeepsDays f) {head : LunarDate}
    {others others' : Occurrences LunarDate → Occurrences LunarDate}
    (hothers : ∀ walk, others' (walk.map f) = (others walk).map f)
    (second : Occurrences LunarDate) :
    mergeHead (f head) others' (second.map f) = (mergeHead head others second).map f := by
  induction second with
  | done => exact congrArg (item (f head)) (funext fun _ => hothers done)
  | failed e => rfl
  | item next rest ih =>
    rw [map, mergeHead, mergeHead, hf next, hf head]
    split
    · exact congrArg (item (f next)) (funext ih)
    · exact congrArg (item (f head)) (funext fun _ => hothers (item next rest))
  | ask inquiry next ih => exact congrArg (ask inquiry) (funext ih)

theorem merge2_map (hf : LunarDate.KeepsDays f) (first second : Occurrences LunarDate) :
    merge2 (first.map f) (second.map f) = (merge2 first second).map f := by
  induction first generalizing second with
  | done => rfl
  | failed e => rfl
  | item head rest ih => exact mergeHead_map hf (fun walk => ih () walk) second
  | ask inquiry next ih => exact congrArg (ask inquiry) (funext fun answer => ih answer second)

theorem merge_map (hf : LunarDate.KeepsDays f) (walks : List (Occurrences LunarDate)) :
    merge (walks.map (map f)) = (merge walks).map f := by
  induction walks with
  | nil => rfl
  | cons walk rest ih =>
    show merge2 (walk.map f) (merge (rest.map (map f))) = _
    rw [ih, merge2_map hf]
    rfl

theorem isAt_map (hf : LunarDate.KeepsDays f) (day : LunarDay) (walk : Occurrences LunarDate) :
    isAt day (walk.map f) = isAt day walk := by
  cases walk with
  | item head rest => rw [map, isAt, isAt, hf head]
  | _ => rfl

theorem exclude_map (hf : LunarDate.KeepsDays f) (included excluded : Occurrences LunarDate)
    (last : Option String) :
    exclude (included.map f) last (excluded.map f) = (exclude included last excluded).map f := by
  induction included generalizing last excluded with
  | done => rfl
  | failed e => rfl
  | item head rest ih =>
    have hday : ∀ d, (f d).toLunarDay = d.toLunarDay := hf
    have htext : (f head).text = head.text := congrArg LunarDay.text (hf head)
    rw [map, exclude, exclude, htext, hf head]
    split
    · exact ih () excluded last
    · rw [map_after, dropWhile_map, after_map]
      simp only [hday, isAt_map hf]
      refine congrArg (after _) (funext fun left => ?_)
      split
      · exact ih () left _
      · exact congrArg (item (f head)) (funext fun _ => ih () left _)
  | ask inquiry next ih =>
    exact congrArg (ask inquiry) (funext fun answer => ih answer excluded last)

/-- **A change of dates that keeps their days can be made before merging and excluding or after.** -/
theorem mergeExcept_map (hf : LunarDate.KeepsDays f)
    (included excluded : List (Occurrences LunarDate)) :
    mergeExcept (included.map (map f)) (excluded.map (map f)) =
      (mergeExcept included excluded).map f := by
  rw [mergeExcept, mergeExcept, map_after, merge_map hf, merge_map hf, dropWhile_map, after_map]
  exact congrArg (after _) (funext fun left => exclude_map hf _ left none)

end Occurrences

end HijriRecurrence
