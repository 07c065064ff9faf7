import HijriRecurrence.Occurrence.Stream

/-!
# What a walk yields

Under fixed answers a walk that does not fail yields a list (`Occurrences.Yields`): it passes along
these occurrences and then it is over.  The lemmas take a walk apart (`yields_item_iff`), go past a
step whose result is known (`Yields.after`), and go along occurrences that can all be worked out
(`Yields.yieldAll`).

Two walks agree (`Agree`) when nobody can tell them apart by walking along them, whether they fail
or not.
-/

namespace HijriRecurrence.Occurrences

variable {α β : Type}

/-- A walk passes along the occurrences of a list, and then it is over. -/
structure Yields (answers : Answers) (walk : Occurrences α) (list : List α) : Prop where
  ending : walk.ending answers = none
  items : walk.items answers = list

variable {answers : Answers} {list : List α}

theorem yields_done : Yields answers (done : Occurrences α) [] := ⟨rfl, rfl⟩

@[simp] theorem yields_done_iff : Yields answers (done : Occurrences α) list ↔ list = [] :=
  ⟨fun h => h.items.symm, fun h => h ▸ yields_done⟩

@[simp] theorem not_yields_failed (e : Error) :
    ¬Yields answers (failed e : Occurrences α) list := by
  intro h
  cases h.ending

theorem yields_item_iff {head : α} {rest : Unit → Occurrences α} :
    Yields answers (item head rest) list ↔
      ∃ others, list = head :: others ∧ Yields answers (rest ()) others := by
  constructor
  · rintro ⟨hending, rfl⟩
    exact ⟨_, rfl, hending, rfl⟩
  · rintro ⟨others, rfl, hending, rfl⟩
    exact ⟨hending, rfl⟩

@[simp] theorem yields_ask_iff {inquiry : Inquiry} {next : inquiry.Answer → Occurrences α} :
    Yields answers (ask inquiry next) list ↔ Yields answers (next (answers inquiry)) list :=
  ⟨fun h => ⟨h.ending, h.items⟩, fun h => ⟨h.ending, h.items⟩⟩

theorem Yields.after {c : Calculation β} {b : β} {f : β → Occurrences α}
    (hc : c.outcome answers = .ok b) (h : Yields answers (f b) list) :
    Yields answers (after c f) list := by
  refine ⟨?_, ?_⟩
  · rw [ending_after, hc]
    exact h.ending
  · rw [items_after, hc]
    exact h.items

theorem Yields.map {walk : Occurrences α} (h : Yields answers walk list) (f : α → β) :
    Yields answers (walk.map f) (list.map f) :=
  ⟨(ending_map answers f walk).trans h.ending, h.items ▸ items_map answers f walk⟩

/-- Occurrences that can all be worked out from the entries of a list. -/
theorem Yields.yieldAll {γ : Type} {f : β → Calculation α} {embed : γ → β} {g : γ → α}
    {entries : List γ} (hf : ∀ c ∈ entries, (f (embed c)).outcome answers = .ok (g c))
    {following : Unit → Occurrences α} (h : Yields answers (following ()) list) :
    Yields answers (yieldAll f (entries.map embed) following) (entries.map g ++ list) := by
  induction entries with
  | nil => exact h
  | cons c rest ih =>
    have hrest := ih fun e he => hf e (List.mem_cons_of_mem c he)
    refine Yields.after (hf c List.mem_cons_self) ⟨hrest.ending, ?_⟩
    exact congrArg (g c :: ·) hrest.items

/-! ### Two walks -/

/-- Two walks pass along the same occurrences, and fail alike if they fail. -/
structure Agree (answers : Answers) (walk other : Occurrences α) : Prop where
  items : walk.items answers = other.items answers
  ending : walk.ending answers = other.ending answers

theorem Agree.refl (walk : Occurrences α) : Agree answers walk walk := ⟨rfl, rfl⟩

/-- Walks agree that go on alike from the same result. -/
theorem Agree.after {c c' : Calculation β} {f f' : β → Occurrences α}
    (hc : c.outcome answers = c'.outcome answers)
    (hf : ∀ b, c.outcome answers = .ok b → Agree answers (f b) (f' b)) :
    Agree answers (after c f) (after c' f') := by
  constructor
  · rw [items_after, items_after, ← hc]
    cases hb : c.outcome answers with
    | ok b => exact (hf b hb).items
    | error e => rfl
  · rw [ending_after, ending_after, ← hc]
    cases hb : c.outcome answers with
    | ok b => exact (hf b hb).ending
    | error e => rfl

/-- Walks agree that pass along the same entries and then go on alike. -/
theorem Agree.yieldAll (f : β → Calculation α) (entries : List β)
    {following following' : Unit → Occurrences α}
    (h : Agree answers (following ()) (following' ())) :
    Agree answers (yieldAll f entries following) (yieldAll f entries following') := by
  induction entries with
  | nil => exact h
  | cons b rest ih =>
    apply Agree.after rfl
    intro head _
    exact ⟨congrArg (head :: ·) ih.items, ih.ending⟩

end HijriRecurrence.Occurrences
