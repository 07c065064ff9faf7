import HijriRecurrence.Calculation
import Mathlib.Data.List.Forall2

/-!
# Outcomes, step by step

A proof about a calculation follows it step by step: `outcome_bind_ok` goes past a step whose result
is known, and `outcome_liftM` reads a step that asks nothing.  `outcome_mapM_eq_ok` and
`outcome_filterMap` do this along a list.
-/

namespace HijriRecurrence.Calculation

variable {α β : Type} {answers : Answers}

@[simp] theorem outcome_liftM (x : Except Error α) :
    (liftM x : Calculation α).outcome answers = x := by
  cases x <;> rfl

/-- A sequence of steps that ask nothing succeeds exactly when each of them does in turn. -/
theorem except_bind_eq_ok {x : Except Error α} {f : α → Except Error β} {b : β} :
    x >>= f = .ok b ↔ ∃ a, x = .ok a ∧ f a = .ok b := by
  cases x <;> simp [bind, Except.bind]

theorem except_map_eq_ok {x : Except Error α} {f : α → β} {b : β} :
    x.map f = .ok b ↔ ∃ a, x = .ok a ∧ f a = b := by
  cases x <;> simp [Except.map]

/-- A calculation goes on from a known result. -/
theorem outcome_bind_ok {c : Calculation α} {a : α} (h : c.outcome answers = .ok a)
    (f : α → Calculation β) : (c >>= f).outcome answers = (f a).outcome answers := by
  rw [outcome_bind, h]
  rfl

/-- The outcome of a changed result. -/
theorem outcome_map (f : α → β) (c : Calculation α) :
    (f <$> c).outcome answers = (c.outcome answers).map f := by
  rw [← bind_pure_comp, outcome_bind]
  cases c.outcome answers <;> rfl

/-- A sequence of steps fails with its first step or with what follows. -/
theorem outcome_bind_eq_error {c : Calculation α} {f : α → Calculation β} {e : Error} :
    (c >>= f).outcome answers = .error e ↔
      c.outcome answers = .error e ∨
        ∃ a, c.outcome answers = .ok a ∧ (f a).outcome answers = .error e := by
  rw [outcome_bind]
  cases c.outcome answers <;> simp [bind, Except.bind]

/-- Where failures only turn into other failures, recovery changes no result. -/
theorem outcome_tryCatch_eq_ok {c : Calculation α} {handle : Error → Calculation α}
    (hfail : ∀ e a, (handle e).outcome answers ≠ .ok a) {a : α} :
    (tryCatch c handle).outcome answers = .ok a ↔ c.outcome answers = .ok a := by
  rw [outcome_tryCatch]
  cases c.outcome answers with
  | ok b => rfl
  | error e => exact ⟨fun h => absurd h (hfail e a), fun h => by cases h⟩

/-- A failure goes out as what the handler makes of it. -/
theorem outcome_tryCatch_eq_error {c : Calculation α} {handle : Error → Calculation α} {e : Error} :
    (tryCatch c handle).outcome answers = .error e ↔
      ∃ e', c.outcome answers = .error e' ∧ (handle e').outcome answers = .error e := by
  rw [outcome_tryCatch]
  cases c.outcome answers with
  | ok a => simp
  | error e' => simp

/-- A calculation along a list succeeds with some results exactly when it succeeds with each of them
in its place. -/
theorem outcome_mapM_eq_ok {f : α → Calculation β} {items : List α} {images : List β} :
    (items.mapM f).outcome answers = .ok images ↔
      List.Forall₂ (fun a b => (f a).outcome answers = .ok b) items images := by
  induction items generalizing images with
  | nil =>
    rw [List.mapM_nil, List.forall₂_nil_left_iff]
    exact ⟨fun h => (Except.ok.inj h).symm, fun h => congrArg Except.ok h.symm⟩
  | cons a rest ih =>
    simp only [List.mapM_cons, outcome_bind_eq_ok, ih, List.forall₂_cons_left_iff]
    constructor
    · rintro ⟨b, hb, others, hothers, himages⟩
      exact ⟨b, others, hb, hothers, (Except.ok.inj himages).symm⟩
    · rintro ⟨b, others, hb, hothers, rfl⟩
      exact ⟨b, hb, others, hothers, rfl⟩

/-- A calculation along a list fails at the first item at which it fails. -/
theorem outcome_mapM_eq_error {f : α → Calculation β} {items : List α} {e : Error} :
    (items.mapM f).outcome answers = .error e ↔
      ∃ before a after, items = before ++ a :: after ∧
        (∀ b ∈ before, ∃ image, (f b).outcome answers = .ok image) ∧
        (f a).outcome answers = .error e := by
  induction items with
  | nil => simp
  | cons first rest ih =>
    simp only [List.mapM_cons, outcome_bind_eq_error, ih, outcome_pure, reduceCtorEq, and_false,
      exists_false, or_false]
    constructor
    · rintro (hfirst | ⟨image, himage, before, a, after, rfl, hbefore, ha⟩)
      · exact ⟨[], first, rest, rfl, by simp, hfirst⟩
      · exact ⟨first :: before, a, after, rfl,
          List.forall_mem_cons.2 ⟨⟨image, himage⟩, hbefore⟩, ha⟩
    · rintro ⟨before, a, after, hitems, hbefore, ha⟩
      cases before with
      | nil =>
        obtain ⟨rfl, rfl⟩ := List.cons.inj hitems
        exact .inl ha
      | cons b before =>
        obtain ⟨rfl, rfl⟩ := List.cons.inj hitems
        obtain ⟨⟨image, himage⟩, hlater⟩ := List.forall_mem_cons.1 hbefore
        exact .inr ⟨image, himage, before, a, after, rfl, hlater, ha⟩

/-- Steps along a list fail at the first item at which the step fails. -/
theorem outcome_foldlM_eq_error {step : β → α → Calculation β} {items : List α} {start : β}
    {e : Error} :
    (items.foldlM step start).outcome answers = .error e ↔
      ∃ before a after state, items = before ++ a :: after ∧
        (before.foldlM step start).outcome answers = .ok state ∧
        (step state a).outcome answers = .error e := by
  induction items generalizing start with
  | nil => simp
  | cons first rest ih =>
    simp only [List.foldlM_cons, outcome_bind_eq_error, ih]
    constructor
    · rintro (hfirst | ⟨next, hnext, before, a, after, state, rfl, hbefore, ha⟩)
      · exact ⟨[], first, rest, start, rfl, rfl, hfirst⟩
      · refine ⟨first :: before, a, after, state, rfl, ?_, ha⟩
        rw [List.foldlM_cons]
        exact (outcome_bind_ok hnext _).trans hbefore
    · rintro ⟨before, a, after, state, hitems, hbefore, ha⟩
      cases before with
      | nil =>
        obtain ⟨rfl, rfl⟩ := List.cons.inj hitems
        obtain rfl := Except.ok.inj hbefore
        exact .inl ha
      | cons b before =>
        obtain ⟨rfl, rfl⟩ := List.cons.inj hitems
        rw [List.foldlM_cons] at hbefore
        obtain ⟨next, hnext, hlater⟩ := outcome_bind_eq_ok.1 hbefore
        exact .inr ⟨next, hnext, before, a, after, state, rfl, hlater, ha⟩

/-- The results along a list, when something is known about each of them. -/
theorem exists_outcome_filterMap {γ : Type} {f : α → Calculation (Option β)} {view : β → γ}
    {g : α → Option γ} {items : List α}
    (h : ∀ a ∈ items, ∃ image, (f a).outcome answers = .ok image ∧ image.map view = g a) :
    ∃ images, (filterMap f items).outcome answers = .ok images ∧
      images.map view = items.filterMap g := by
  induction items with
  | nil => exact ⟨[], rfl, rfl⟩
  | cons a rest ih =>
    obtain ⟨image, himage, hview⟩ := h a List.mem_cons_self
    obtain ⟨images, himages, hviews⟩ := ih fun b hb => h b (List.mem_cons_of_mem a hb)
    rw [filterMap, outcome_bind_ok himage, outcome_bind_ok himages, List.filterMap_cons, ← hview]
    cases image with
    | none => exact ⟨images, rfl, hviews⟩
    | some b => exact ⟨b :: images, rfl, congrArg (view b :: ·) hviews⟩

/-- The results along a list, when each of them is known. -/
theorem outcome_filterMap {f : α → Calculation (Option β)} {g : α → Option β} {items : List α}
    (h : ∀ a ∈ items, (f a).outcome answers = .ok (g a)) :
    (filterMap f items).outcome answers = .ok (items.filterMap g) := by
  have hsame : ∀ a ∈ items, ∃ image, (f a).outcome answers = .ok image ∧ image.map id = g a := by
    intro a ha
    exact ⟨g a, h a ha, Option.map_id_apply⟩
  obtain ⟨images, himages, hview⟩ := exists_outcome_filterMap hsame
  rw [himages, ← hview, List.map_id]

/-- The results along a list, when each of them comes from something with a property. -/
theorem exists_outcome_filterMap_map {γ : Type} {f : α → Calculation (Option β)} {g : γ → β}
    {P : γ → Prop} {items : List α}
    (h : ∀ a ∈ items, ∃ found : Option γ,
      (f a).outcome answers = .ok (found.map g) ∧ ∀ c ∈ found, P c) :
    ∃ found : List γ, (filterMap f items).outcome answers = .ok (found.map g) ∧
      ∀ c ∈ found, P c := by
  induction items with
  | nil => exact ⟨[], rfl, fun c hc => absurd hc List.not_mem_nil⟩
  | cons a rest ih =>
    obtain ⟨first, hfirst, hP⟩ := h a List.mem_cons_self
    obtain ⟨later, hlater, hPs⟩ := ih fun b hb => h b (List.mem_cons_of_mem a hb)
    rw [filterMap, outcome_bind_ok hfirst, outcome_bind_ok hlater]
    cases first with
    | none => exact ⟨later, rfl, hPs⟩
    | some c => exact ⟨c :: later, rfl, List.forall_mem_cons.2 ⟨hP c rfl, hPs⟩⟩

/-- The results along a list are all those of its items. -/
theorem mem_of_outcome_filterMap {f : α → Calculation (Option β)} {items : List α}
    {images : List β} (h : (filterMap f items).outcome answers = .ok images) {b : β}
    (hb : b ∈ images) : ∃ a ∈ items, (f a).outcome answers = .ok (some b) := by
  induction items generalizing images with
  | nil =>
    obtain rfl : [] = images := by simpa [filterMap] using h
    exact absurd hb List.not_mem_nil
  | cons a rest ih =>
    obtain ⟨image, himage, h⟩ := outcome_bind_eq_ok.1 h
    obtain ⟨others, hothers, h⟩ := outcome_bind_eq_ok.1 h
    have hrest : b ∈ others → ∃ c ∈ a :: rest, (f c).outcome answers = .ok (some b) := by
      intro hmem
      obtain ⟨c, hc, hfc⟩ := ih hothers hmem
      exact ⟨c, List.mem_cons_of_mem a hc, hfc⟩
    cases image with
    | none =>
      obtain rfl : others = images := by simpa using h
      exact hrest hb
    | some first =>
      obtain rfl : first :: others = images := by simpa using h
      rcases List.mem_cons.1 hb with rfl | hmem
      · exact ⟨a, List.mem_cons_self, himage⟩
      · exact hrest hmem

end HijriRecurrence.Calculation
