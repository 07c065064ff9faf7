import HijriRecurrence.Proofs.Recurrence.Memo
import HijriRecurrence.Recurrence.Shared

/-!
# What an operation does with a memo

The memo is not seen, where it can know the queries.  `Alike` relates what an operation does with a
memo to what it does without one: the same reply or the same failure, and a memo that agrees with
its recurrence afterwards.  Every operation keeps to it that the memo can know (`perform_alike`);
any other one is refused (`perform_refused`).
-/

namespace HijriRecurrence

open Occurrences

variable {ctx : Context} {answers : Answers} {r : Recurrence} {α β : Type}

namespace Recurrence

/-! ### Without a memo -/

@[simp] theorem memo_withMemo (memo : Option Memo) : (r.withMemo memo).memo = memo := by
  cases r <;> rfl

@[simp] theorem withMemo_withMemo (memo other : Option Memo) :
    (r.withMemo memo).withMemo other = r.withMemo other := by
  cases r <;> rfl

@[simp] theorem occurrences_withMemo (memo : Option Memo) :
    (r.withMemo memo).occurrences ctx = r.occurrences ctx := by
  cases r <;> rfl

@[simp] theorem itemWalk_withMemo (memo : Option Memo) :
    (r.withMemo memo).itemWalk ctx = r.itemWalk ctx := by
  cases r <;> rfl

@[simp] theorem readDate_withMemo (memo : Option Memo) (value : Value) :
    (r.withMemo memo).readDate ctx value = r.readDate ctx value := by
  cases r <;> rfl

@[simp] theorem hasOnlyDates_withMemo (memo : Option Memo) :
    (r.withMemo memo).hasOnlyDates = r.hasOnlyDates := by
  cases r <;> rfl

/-- The memo that a recurrence keeps, if it does, agrees with it. -/
def Consistent (ctx : Context) (answers : Answers) (r : Recurrence) : Prop :=
  ∀ m ∈ r.memo, m.Agrees ctx answers r

theorem consistent_none : (r.withMemo none).Consistent ctx answers := by
  intro m hm
  rw [memo_withMemo] at hm
  cases hm

theorem consistent_some {m : Memo} (h : m.Agrees ctx answers r) :
    (r.withMemo (some m)).Consistent ctx answers := by
  intro other hother
  rw [memo_withMemo] at hother
  cases hother
  exact h.withMemo _

/-! ### Alike -/

/-- What is done with a memo is what is done without one: the same is given, by a recurrence that is
the same but for a memo that agrees with it, or both fail alike. -/
inductive Alike (ctx : Context) (answers : Answers) :
    Except Error (α × Recurrence) → Except Error (α × Recurrence) → Prop where
  | ok {a : α} {r : Recurrence} (h : r.Consistent ctx answers) :
      Alike ctx answers (.ok (a, r)) (.ok (a, r.withMemo none))
  | error (e : Error) : Alike ctx answers (.error e) (.error e)

theorem alike_bind {c : Calculation β} {f g : β → Calculation (α × Recurrence)}
    (h : ∀ b, c.outcome answers = .ok b →
      Alike ctx answers ((f b).outcome answers) ((g b).outcome answers)) :
    Alike ctx answers ((c >>= f).outcome answers) ((c >>= g).outcome answers) := by
  rw [Calculation.outcome_bind, Calculation.outcome_bind]
  cases hc : c.outcome answers with
  | error e => exact Alike.error e
  | ok b => exact h b hc

/-- What is given may be changed on both sides. -/
theorem Alike.map {c d : Calculation (α × Recurrence)} (f : α → β)
    (h : Alike ctx answers (c.outcome answers) (d.outcome answers)) :
    Alike ctx answers ((c >>= fun (a, r) => pure (f a, r)).outcome answers)
      ((d >>= fun (a, r) => pure (f a, r)).outcome answers) := by
  rw [Calculation.outcome_bind, Calculation.outcome_bind]
  generalize c.outcome answers = x at h
  generalize d.outcome answers = y at h
  cases h with
  | ok hr => exact Alike.ok hr
  | error e => exact Alike.error e

/-- What leaves the recurrence as it is, is alike. -/
theorem alike_unchanged (h : r.Consistent ctx answers) (f : β → α) (c : Calculation β) :
    Alike ctx answers ((c >>= fun b => pure (f b, r)).outcome answers)
      ((c >>= fun b => pure (f b, r.withMemo none)).outcome answers) := by
  apply alike_bind
  intro b _
  exact Alike.ok h

/-- A memo that agrees may be kept by the one side. -/
theorem alike_kept {m : Memo} (h : m.Agrees ctx answers r) (a : α) :
    Alike ctx answers (.ok (a, r.withMemo (some m))) (.ok (a, r.withMemo none)) := by
  have halike := Alike.ok (a := a) (consistent_some h)
  rw [withMemo_withMemo] at halike
  exact halike

/-! ### Queries -/

/-- A query that is answered from a memo where that has the answer, and otherwise worked out and
recorded, is alike to one that is worked out. -/
theorem alike_recall {ask : Calculation β} {get : Except Error (Option (Answer β))}
    {set : β → Except Error Memo} {kept : Option (Answer β)}
    {goOn : Option (Answer β) → Calculation (Answer β × Recurrence)} (h : r.Consistent ctx answers)
    (hget : get = .ok kept)
    (hsome : ∀ answer, goOn (some answer) = pure (answer, r))
    (hnone : goOn none = do
      let found ← ask
      let memo ← set found
      return (.found found, r.withMemo (some memo)))
    (hkept : ∀ answer ∈ kept, ∃ found, answer = .found found ∧ ask.outcome answers = .ok found)
    (hset : ∀ found, ask.outcome answers = .ok found →
      ∃ m : Memo, set found = .ok m ∧ m.Agrees ctx answers r) :
    Alike ctx answers (((liftM get : Calculation _) >>= goOn).outcome answers)
      ((ask >>= fun found => pure (.found found, r.withMemo none)).outcome answers) := by
  have hgot : (liftM get : Calculation _).outcome answers = .ok kept := by
    rw [Calculation.outcome_liftM, hget]
  rw [Calculation.outcome_bind_ok hgot]
  cases kept with
  | some answer =>
    obtain ⟨found, rfl, hfound⟩ := hkept answer rfl
    rw [hsome, Calculation.outcome_bind_ok hfound]
    exact Alike.ok h
  | none =>
    rw [hnone]
    apply alike_bind
    intro found hfound
    obtain ⟨m, hm, hagrees⟩ := hset found hfound
    rw [hm]
    exact alike_kept hagrees _

/-- What holds where a memo is kept, holds of the one that is. -/
theorem of_memo_eq_some {p : Prop} {m : Memo} (h : r.memo = none ∨ p) (hmemo : r.memo = some m) :
    p := by
  refine h.resolve_left fun hnone => ?_
  cases hnone.symm.trans hmemo

theorem alike_after (h : r.Consistent ctx answers) (value : Value) {inclusive : Value}
    (hkey : r.memo = none ∨ inclusive.isKey = true) :
    Alike ctx answers ((r.after ctx value inclusive).outcome answers)
      (((r.withMemo none).after ctx value inclusive).outcome answers) := by
  unfold after
  rw [readDate_withMemo, memo_withMemo, occurrences_withMemo]
  apply alike_bind
  intro date _
  cases hmemo : r.memo with
  | none => exact alike_unchanged h Answer.found _
  | some m =>
    have hkey := Memo.nearKey_of_isKey (of_memo_eq_some hkey hmemo) date.text
    have hget : m.getAfter date.text inclusive =
        .ok (m.after.lookup ⟨date.text, inclusive⟩) := by
      rw [Memo.getAfter, hkey]
      rfl
    apply alike_recall h hget (fun answer => rfl) rfl
    · intro answer hanswer
      exact (h m hmemo).after date inclusive answer hanswer
    · intro found hfound
      refine ⟨_, ?_, (h m hmemo).setAfter hfound⟩
      rw [Memo.setAfter, hkey]
      rfl

theorem alike_before (h : r.Consistent ctx answers) (value : Value) {inclusive : Value}
    (hkey : r.memo = none ∨ inclusive.isKey = true) :
    Alike ctx answers ((r.before ctx value inclusive).outcome answers)
      (((r.withMemo none).before ctx value inclusive).outcome answers) := by
  unfold before
  rw [readDate_withMemo, memo_withMemo, occurrences_withMemo]
  apply alike_bind
  intro date _
  cases hmemo : r.memo with
  | none => exact alike_unchanged h Answer.found _
  | some m =>
    have hkey := Memo.nearKey_of_isKey (of_memo_eq_some hkey hmemo) date.text
    have hget : m.getBefore date.text inclusive =
        .ok (m.before.lookup ⟨date.text, inclusive⟩) := by
      rw [Memo.getBefore, hkey]
      rfl
    apply alike_recall h hget (fun answer => rfl) rfl
    · intro answer hanswer
      exact (h m hmemo).before date inclusive answer hanswer
    · intro found hfound
      refine ⟨_, ?_, (h m hmemo).setBefore hfound⟩
      rw [Memo.setBefore, hkey]
      rfl

/-- Between two dates a scan that nobody watches keeps dates and ends well or not. -/
theorem exists_outcome_between (walk : Occurrences LunarDate) (a b : LunarDate)
    (inclusive : Bool) (answers : Answers) :
    ∃ kept failure, (walk.between a b inclusive).outcome answers = .ok { kept, failure } := by
  unfold Occurrences.between
  generalize ([] : List LunarDate) = kept
  generalize 0 = count
  induction walk generalizing kept count with
  | done => exact ⟨_, _, rfl⟩
  | failed e => exact ⟨_, _, rfl⟩
  | item head rest ih =>
    rw [betweenOnto, isRefused, if_neg Bool.false_ne_true]
    split
    · exact ⟨_, _, rfl⟩
    · split
      · exact ih () _ _
      · exact ih () _ _
  | ask inquiry next ih => exact ih (answers inquiry) kept count

theorem alike_between (h : r.Consistent ctx answers) (after before : Value) {inclusive : Value}
    (watcher : Option (Watcher LunarDate))
    (hkey : r.memo = none ∨ (watcher = none → inclusive.isKey = true)) :
    Alike ctx answers ((r.between ctx after before inclusive watcher).outcome answers)
      (((r.withMemo none).between ctx after before inclusive watcher).outcome answers) := by
  unfold between
  rw [readDate_withMemo, readDate_withMemo]
  apply alike_bind
  intro start _
  apply alike_bind
  intro stop _
  unfold betweenDates
  rw [memo_withMemo, occurrences_withMemo]
  cases hmemo : r.memo with
  | none => exact alike_unchanged h Answer.found _
  | some m =>
    cases watcher with
    | some watcher => exact alike_unchanged h Answer.found _
    | none =>
      have hkey := Memo.spanKey_of_isKey (of_memo_eq_some hkey hmemo rfl) start.text stop.text
      dsimp only
      rw [Memo.getBetween, hkey, Except.map]
      cases hlookup : m.between.lookup ⟨start.text, stop.text, inclusive⟩ with
      | some answer =>
        obtain ⟨kept, rfl, hkept⟩ := (h m hmemo).between start stop inclusive answer hlookup
        rw [Calculation.outcome_bind_ok hkept]
        exact Alike.ok h
      | none =>
        rw [Calculation.outcome_bind_ok (a := none) rfl]
        apply alike_bind
        intro scan hscan
        obtain ⟨kept, failure, hscan'⟩ := exists_outcome_between (r.occurrences ctx) start stop
          inclusive.truthy answers
        obtain rfl := Except.ok.inj (hscan.symm.trans hscan')
        cases failure with
        | some e => exact Alike.ok h
        | none =>
          dsimp only
          rw [Memo.setBetween, hkey]
          exact alike_kept ((h m hmemo).setBetween hscan) _

/-- The walk along the items of a recurrence that has only dates. -/
theorem itemWalk_of_hasOnlyDates (hdates : r.hasOnlyDates = true) :
    r.itemWalk ctx = (r.occurrences ctx).map .lunar := by
  cases r with
  | rule r => rfl
  | set s => exact RuleSet.itemWalk_of_hasOnlyRules ctx hdates

/-- Items are all dates exactly when they are the items of some dates. -/
theorem mapM_lunar_eq_some {items : List Value} {dates : List LunarDate} :
    items.mapM Value.lunar? = some dates ↔ items = dates.map .lunar := by
  induction items generalizing dates with
  | nil => cases dates <;> simp
  | cons v rest ih =>
    rw [List.mapM_cons]
    cases v with
    | lunar d =>
      cases dates with
      | nil => simp [Value.lunar?, Option.bind_eq_some_iff]
      | cons e others =>
        simp [Value.lunar?, Option.bind_eq_some_iff, ih, and_left_comm]
    | _ => cases dates <;> simp [Value.lunar?]

theorem ofItems_lunar (dates : List LunarDate) :
    Answer.ofItems (dates.map .lunar) = .found dates := by
  rw [Answer.ofItems, mapM_lunar_eq_some.2 rfl]

/-- Items that are answered with are given back as they are. -/
theorem itemScan_ofItems (items : List Value) :
    itemScan ((Answer.ofItems items).map fun kept => { kept }) = { kept := items } := by
  unfold Answer.ofItems
  cases hdates : items.mapM Value.lunar? with
  | none => rfl
  | some dates =>
    rw [mapM_lunar_eq_some.1 hdates]
    rfl

theorem yields_map_lunar {walk : Occurrences LunarDate} {items : List Value}
    (h : Yields answers (walk.map .lunar) items) :
    ∃ dates, items = dates.map .lunar ∧ Yields answers walk dates := by
  have hitems := h.items
  have hending := h.ending
  rw [items_map] at hitems
  rw [ending_map] at hending
  exact ⟨walk.items answers, hitems.symm, hending, rfl⟩

theorem alike_all (h : r.Consistent ctx answers) (hdates : r.hasOnlyDates = true)
    (limit : Option Int) (watcher : Option (Watcher LunarDate)) :
    Alike ctx answers ((r.all ctx limit watcher).outcome answers)
      (((r.withMemo none).all ctx limit watcher).outcome answers) := by
  unfold all
  rw [memo_withMemo, occurrences_withMemo]
  cases hmemo : r.memo with
  | none => exact alike_unchanged h Answer.found _
  | some m =>
    cases limit with
    | some limit => exact alike_unchanged h Answer.found _
    | none =>
      cases watcher with
      | some watcher => exact alike_unchanged h Answer.found _
      | none =>
        dsimp only
        cases hall : m.all with
        | some answer =>
          obtain ⟨items, rfl, hitems⟩ := (h m hmemo).all answer hall
          rw [itemWalk_of_hasOnlyDates hdates] at hitems
          obtain ⟨dates, rfl, hyields⟩ := yields_map_lunar hitems
          rw [ofItems_lunar, Calculation.outcome_bind_ok hyields.collect]
          exact Alike.ok h
        | none =>
          apply alike_bind
          intro scan hscan
          cases hfailure : scan.failure with
          | some e => exact Alike.ok h
          | none =>
            have hitems : Yields answers (r.itemWalk ctx) (scan.kept.map .lunar) := by
              rw [itemWalk_of_hasOnlyDates hdates]
              exact (yields_of_collect hscan hfailure).map Value.lunar
            have hagrees := (h m hmemo).setAll hitems
            rw [ofItems_lunar] at hagrees
            exact alike_kept hagrees _

theorem alike_allItems (h : r.Consistent ctx answers) (limit : Option Int)
    (watcher : Option (Watcher Value)) :
    Alike ctx answers ((r.allItems ctx limit watcher).outcome answers)
      (((r.withMemo none).allItems ctx limit watcher).outcome answers) := by
  unfold allItems
  rw [hasOnlyDates_withMemo]
  by_cases hdates : r.hasOnlyDates = true
  · rw [if_pos hdates, if_pos hdates]
    exact (alike_all h hdates limit (watcher.map watchDates)).map itemScan
  · rw [if_neg hdates, if_neg hdates, memo_withMemo, itemWalk_withMemo]
    cases hmemo : r.memo with
    | none => exact alike_unchanged h id _
    | some m =>
      cases limit with
      | some limit => exact alike_unchanged h id _
      | none =>
        cases watcher with
        | some watcher => exact alike_unchanged h id _
        | none =>
          dsimp only
          cases hall : m.all with
          | some answer =>
            obtain ⟨items, rfl, hitems⟩ := (h m hmemo).all answer hall
            dsimp only
            rw [itemScan_ofItems, Calculation.outcome_bind_ok hitems.collect]
            exact Alike.ok h
          | none =>
            apply alike_bind
            intro scan hscan
            cases hfailure : scan.failure with
            | some e => exact Alike.ok h
            | none =>
              exact alike_kept ((h m hmemo).setAll (yields_of_collect hscan hfailure)) _

/-! ### Additions -/

/-- An addition that forgets the memo, and does nothing else to it, is alike. -/
theorem alike_change (c : Calculation β) {add : RuleSet → β → RuleSet}
    (hforget : ∀ s b, (add s b).memo = s.memo.map fun _ => {})
    (hnone : ∀ s b, add { s with memo := none } b = { add s b with memo := none }) :
    Alike ctx answers ((r.change c add).outcome answers)
      (((r.withMemo none).change c add).outcome answers) := by
  cases r with
  | rule r => exact Alike.error .lacksPart
  | set s =>
    apply alike_bind
    intro b _
    rw [hnone]
    apply Alike.ok
    intro m hm
    obtain ⟨old, -, rfl⟩ := Option.map_eq_some_iff.1 ((hforget s b).symm.trans hm)
    exact Memo.agrees_empty

theorem alike_add (addition : SetChange) :
    Alike ctx answers ((r.add ctx addition).outcome answers)
      (((r.withMemo none).add ctx addition).outcome answers) := by
  cases addition with
  | source source => exact alike_change (pure source) (fun _ _ => rfl) (fun _ _ => rfl)
  | exSource source => exact alike_change (pure source) (fun _ _ => rfl) (fun _ _ => rfl)
  | date date => exact alike_change _ (fun _ _ => rfl) (fun _ _ => rfl)
  | exDate date => exact alike_change _ (fun _ _ => rfl) (fun _ _ => rfl)

/-! ### Operations -/

/-- **No operation shows the memo**, where the memo can know it. -/
theorem perform_alike (h : r.Consistent ctx answers) {op : Operation}
    (hop : r.memo = none ∨ op.isKeyed = true) :
    Alike ctx answers ((r.perform ctx op).outcome answers)
      (((r.withMemo none).perform ctx op).outcome answers) := by
  cases op with
  | all limit watcher => exact (alike_allItems h limit watcher).map Reply.items
  | between after before inclusive watcher =>
    refine (alike_between h after before watcher (hop.imp_right ?_)).map fun answer =>
      Reply.items (itemScan answer)
    rintro hkey rfl
    exact hkey
  | after date inclusive => exact (alike_after h date hop).map Reply.date
  | before date inclusive => exact (alike_before h date hop).map Reply.date
  | add addition => exact alike_add addition

/-! ### Refusals -/

/-- What is done with a memo is refused, unless it fails as it does without one. -/
def IsRefused (x : Except Error α) (y : Except Error β) : Prop :=
  ∃ e, x = .error e ∧ (e = .unhashable ∨ y = .error e)

theorem isRefused_bind {γ : Type} {c : Calculation γ} {f : γ → Calculation α}
    {g : γ → Calculation β}
    (h : ∀ b, IsRefused ((f b).outcome answers) ((g b).outcome answers)) :
    IsRefused ((c >>= f).outcome answers) ((c >>= g).outcome answers) := by
  rw [Calculation.outcome_bind, Calculation.outcome_bind]
  cases c.outcome answers with
  | error e => exact ⟨e, rfl, .inr rfl⟩
  | ok b => exact h b

/-- What is done with a result does not come into it. -/
theorem IsRefused.andThen {γ δ : Type} {c : Calculation α} {d : Calculation β}
    (h : IsRefused (c.outcome answers) (d.outcome answers)) (f : α → Calculation γ)
    (g : β → Calculation δ) :
    IsRefused ((c >>= f).outcome answers) ((d >>= g).outcome answers) := by
  obtain ⟨e, hfail, hsame⟩ := h
  exact ⟨e, Calculation.outcome_bind_eq_error.2 (.inl hfail),
    hsame.imp_right fun hplain => Calculation.outcome_bind_eq_error.2 (.inl hplain)⟩

/-- **An operation that the memo cannot know is refused**, unless it fails for its dates. -/
theorem perform_refused (ctx : Context) (answers : Answers) {m : Memo} (hmemo : r.memo = some m)
    {op : Operation} (hop : op.isKeyed = false) :
    IsRefused ((r.perform ctx op).outcome answers)
      (((r.withMemo none).perform ctx op).outcome answers) := by
  have hcheck {inclusive : Value} (hkey : inclusive.isKey = false) :
      Memo.checkKey inclusive = .error .unhashable := if_neg (by simp [hkey])
  cases op with
  | all limit watcher => cases hop
  | between after before inclusive watcher =>
    cases watcher with
    | some watcher => cases hop
    | none =>
      refine IsRefused.andThen ?_ _ _
      unfold Recurrence.between
      rw [readDate_withMemo, readDate_withMemo]
      refine isRefused_bind fun start => isRefused_bind fun stop => ?_
      simp only [betweenDates, hmemo, Memo.getBetween, Memo.spanKey, hcheck hop]
      exact ⟨_, rfl, .inl rfl⟩
  | after date inclusive =>
    refine IsRefused.andThen ?_ _ _
    unfold Recurrence.after
    rw [readDate_withMemo]
    refine isRefused_bind fun d => ?_
    simp only [hmemo, Memo.getAfter, Memo.nearKey, hcheck hop]
    exact ⟨_, rfl, .inl rfl⟩
  | before date inclusive =>
    refine IsRefused.andThen ?_ _ _
    unfold Recurrence.before
    rw [readDate_withMemo]
    refine isRefused_bind fun d => ?_
    simp only [hmemo, Memo.getBefore, Memo.nearKey, hcheck hop]
    exact ⟨_, rfl, .inl rfl⟩
  | add addition => cases hop

end Recurrence

end HijriRecurrence
