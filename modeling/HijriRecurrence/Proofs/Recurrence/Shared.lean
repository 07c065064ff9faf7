import HijriRecurrence.Proofs.Recurrence.History

/-!
# Operations on a recurrence that shares lists

An operation on a recurrence that shares lists does what it does with the recurrence that this comes
to (`Shared.seen_perform`).  Beyond that it only adds to the lists of the program
(`Shared.grows_perform`): the lists that there were stay as they are, the one that it hands over is
new, and the memo does not keep it.
-/

namespace HijriRecurrence

open Occurrences

variable {ctx : Context} {answers : Answers} {α β : Type}

/-! ### Heaps -/

namespace Heap

variable {h : Heap} {a b : Address} {items : List Value} {change : List Value → List Value}

@[simp] theorem size_allocate : (h.allocate items).2.size = h.size + 1 := List.length_append

@[simp] theorem fst_allocate : (h.allocate items).1 = h.size := rfl

@[simp] theorem read_allocate_size : (h.allocate items).2.read h.size = items := by
  simp [read, allocate, size]

theorem read_allocate_of_lt (ha : a < h.size) : (h.allocate items).2.read a = h.read a := by
  rw [size] at ha
  simp [read, allocate, List.getElem?_append_left ha]

@[simp] theorem size_modify : (h.modify a change).size = h.size := List.length_modify ..

theorem read_modify_self (ha : a < h.size) : (h.modify a change).read a = change (h.read a) := by
  rw [size] at ha
  simp [read, modify, ha]

theorem read_modify_of_ne (hne : a ≠ b) : (h.modify a change).read b = h.read b := by
  simp [read, modify, hne]

end Heap

/-! ### Memos -/

namespace Memo

variable {κ : Type} [BEq κ] (f : α → β)

theorem lookup_map (table : List (κ × α)) (key : κ) :
    (table.map fun entry => (entry.1, f entry.2)).lookup key = (table.lookup key).map f := by
  induction table with
  | nil => rfl
  | cons entry rest ih =>
    rw [List.map_cons, List.lookup_cons, List.lookup_cons, ih]
    cases key == entry.1 <;> rfl

theorem record_map (table : List (κ × α)) (key : κ) (answer : α) :
    record (table.map fun entry => (entry.1, f entry.2)) key (f answer) =
      (record table key answer).map fun entry => (entry.1, f entry.2) := by
  unfold record
  rw [lookup_map, Option.isSome_map, apply_ite (List.map _), List.map_append, List.map_map,
    List.map_map]
  congr 1
  refine List.map_congr_left fun entry _ => ?_
  rw [Function.comp_apply, Function.comp_apply, apply_ite fun e : κ × α => (e.1, f e.2)]

theorem mem_record {table : List (κ × α)} {key : κ} {answer : α} {entry : κ × α}
    (h : entry ∈ record table key answer) : entry.2 = answer ∨ entry ∈ table := by
  unfold record at h
  split at h
  · obtain ⟨old, hold, rfl⟩ := List.mem_map.1 h
    split
    · exact .inl rfl
    · exact .inr hold
  · rcases List.mem_append.1 h with hold | hnew
    · exact .inr hold
    · obtain rfl := List.mem_singleton.1 hnew
      exact .inl rfl

end Memo

/-- A memo comes to the same where the lists that it keeps are the same. -/
theorem SharedMemo.view_congr {m : SharedMemo} {h h' : Heap}
    (hsame : ∀ a ∈ m.addresses, h'.read a = h.read a) : m.view h' = m.view h := by
  have hall : ∀ a ∈ m.all, h'.read a = h.read a := fun a ha =>
    hsame a (List.mem_append_left _ (Option.mem_toList.2 ha))
  have hbetween : ∀ entry ∈ m.between, h'.read entry.2 = h.read entry.2 := fun entry hentry =>
    hsame _ (List.mem_append_right _ (List.mem_map_of_mem hentry))
  unfold view
  congr 1
  · exact Option.map_congr fun a ha => by rw [hall a ha]
  · exact List.map_congr_left fun entry hentry => by rw [hbetween entry hentry]

/-! ### Queries worked out anew -/

namespace Recurrence

variable {r : Recurrence} {m : Memo} {limit : Option Int} {watcher : Option (Watcher Value)}

@[simp] theorem collectItems_withMemo (memo : Option Memo) :
    (r.withMemo memo).collectItems ctx limit watcher = r.collectItems ctx limit watcher := by
  cases r <;> rfl

@[simp] theorem betweenItems_withMemo (memo : Option Memo) {start stop : LunarDate}
    {inclusive : Value} {watcher : Option (Watcher LunarDate)} :
    (r.withMemo memo).betweenItems ctx start stop inclusive watcher =
      r.betweenItems ctx start stop inclusive watcher := by
  cases r <;> rfl

/-- An addition has no reply. -/
theorem reply_of_add {addition : SetChange} {reply : Reply} {r' : Recurrence}
    (h : (r.add ctx addition).outcome answers = .ok (reply, r')) : reply = .nothing := by
  have hchange {γ : Type} {c : Calculation γ} {add : RuleSet → γ → RuleSet}
      (h : (r.change c add).outcome answers = .ok (reply, r')) : reply = .nothing := by
    cases r with
    | rule r => cases h
    | set s =>
      obtain ⟨a, -, h⟩ := Calculation.outcome_bind_eq_ok.1 h
      exact (congrArg Prod.fst (Except.ok.inj h)).symm
  cases addition <;> exact hchange h

/-- Where no memo comes into it, all items are worked out. -/
theorem allItems_of_not_kept (h : r.memo = none ∨ limit ≠ none ∨ watcher ≠ none) :
    r.allItems ctx limit watcher = do
      let scan ← r.collectItems ctx limit watcher
      return (scan, r) := by
  unfold allItems collectItems all
  split
  · simp only [bind_assoc, pure_bind]
    split
    · simp_all
    · simp only [bind_assoc, pure_bind]
      rfl
  · split
    · simp_all
    · rfl

/-- Where a memo comes into it, all items are worked out if it does not have them, and kept. -/
theorem allItems_of_memo (hmemo : r.memo = some m) :
    r.allItems ctx none none =
      match m.all with
      | some answer => pure (itemScan (answer.map fun kept => { kept }), r)
      | none => do
        let scan ← r.collectItems ctx none none
        match scan.failure with
        | some _ => return (scan, r)
        | none => return (scan, r.withMemo (some { m with all := some (.ofItems scan.kept) })) := by
  unfold allItems all
  rw [hmemo]
  by_cases hdates : r.hasOnlyDates = true
  · simp only [collectItems, hdates, if_true, Option.map_none]
    cases m.all with
    | some answer => rfl
    | none =>
      simp only [bind_assoc, pure_bind]
      refine congrArg _ (funext fun scan => ?_)
      have hkept : Answer.ofItems (scan.map Value.lunar).kept = .found scan.kept :=
        ofItems_lunar scan.kept
      have hfailure : (scan.map Value.lunar).failure = scan.failure := rfl
      rw [hfailure, hkept]
      cases scan.failure <;> rfl
  · have hwork : r.collectItems ctx none none = (r.itemWalk ctx).collect := if_neg hdates
    rw [hwork]
    obtain ⟨kept, after, before, between⟩ := m
    cases kept with
    | some answer => exact if_neg hdates
    | none => exact if_neg hdates

/-- Where no memo comes into it, the dates between two dates are worked out. -/
theorem betweenDates_of_not_kept {start stop : LunarDate} {inclusive : Value}
    {watcher : Option (Watcher LunarDate)} (h : r.memo = none ∨ watcher ≠ none) :
    (do
      let (answer, r) ← r.betweenDates ctx start stop inclusive watcher
      return (itemScan answer, r)) = do
      let scan ← r.betweenItems ctx start stop inclusive watcher
      return (scan, r) := by
  unfold betweenDates betweenItems
  split
  · simp_all
  · simp only [bind_assoc, pure_bind]
    rfl

/-- Where a memo comes into it, the dates between two dates are worked out if it does not have them,
and kept. -/
theorem betweenDates_of_memo {memo : SharedMemo} {h : Heap} (hmemo : r.memo = some (memo.view h))
    {start stop : LunarDate} {inclusive : Value} :
    (do
      let (answer, r) ← r.betweenDates ctx start stop inclusive none
      return (itemScan answer, r)) = do
      let key ← (Memo.spanKey start.text stop.text inclusive : Calculation SpanKey)
      match memo.between.lookup key with
      | some a => return ({ kept := h.read a }, r)
      | none =>
        let scan ← r.betweenItems ctx start stop inclusive none
        match scan.failure with
        | some _ => return (scan, r)
        | none =>
          return (scan, r.withMemo (some { memo.view h with
            between := Memo.record (memo.view h).between key (.ofItems scan.kept) })) := by
  unfold betweenDates betweenItems
  rw [hmemo]
  dsimp only
  rw [Memo.getBetween]
  cases hkey : Memo.spanKey start.text stop.text inclusive with
  | error e => rfl
  | ok key =>
    have hlookup : (memo.view h).between.lookup key =
        (memo.between.lookup key).map fun a => .ofItems (h.read a) :=
      Memo.lookup_map (fun a => Answer.ofItems (h.read a)) memo.between key
    have hlift {α : Type} (a : α) :
        (liftM (Except.ok a : Except Error α) : Calculation α) = pure a := rfl
    have hset (kept : List LunarDate) :
        (memo.view h).setBetween start.text stop.text inclusive (.found kept) =
          .ok { memo.view h with
            between := Memo.record (memo.view h).between key (.ofItems (kept.map .lunar)) } := by
      rw [Memo.setBetween, hkey, ofItems_lunar]
      rfl
    simp only [Except.map, hlookup, hset, hlift, pure_bind, bind_assoc]
    cases memo.between.lookup key with
    | some a =>
      have hitems := itemScan_ofItems (h.read a)
      unfold Answer.ofItems at hitems ⊢
      simp only [Option.map_some]
      split at hitems
      · exact congrArg (fun scan => (pure (scan, r) : Calculation _)) hitems
      · exact congrArg (fun scan => (pure (scan, r) : Calculation _)) hitems
    | none =>
      simp only [Option.map_none, bind_assoc]
      refine congrArg _ (funext fun scan => ?_)
      have hfailure : (scan.map Value.lunar).failure = scan.failure := rfl
      rw [hfailure]
      cases scan.failure <;> rfl

end Recurrence

/-- What the caller is told, and the recurrence afterwards. -/
def Handed.seen (given : Handed) : Reply × Recurrence := (given.reply, given.shared.view)

namespace Shared

variable {s t : Shared} {m : SharedMemo} {given : Handed}

/-- The memo keeps lists that there are. -/
def Sound (s : Shared) : Prop := ∀ a ∈ s.addresses, a < s.heap.size

theorem addresses_of_memo (hmemo : s.memo = some m) :
    s.addresses = m.addresses := by
  rw [addresses, hmemo]
  rfl

/-! ### What is seen -/

theorem view_of_memo (hmemo : s.memo = some m) :
    s.view.memo = some (m.view s.heap) := by
  rw [view, hmemo, Recurrence.memo_withMemo]
  rfl

theorem memo_view_eq_none (hmemo : s.memo = none) : s.view.memo = none := by
  rw [view, hmemo, Recurrence.memo_withMemo]
  rfl

/-- The recurrence is seen to be the same where the lists of its memo are the same. -/
theorem view_congr {h : Heap} (hsame : ∀ a ∈ s.addresses, h.read a = s.heap.read a) :
    view { s with heap := h } = s.view := by
  unfold view
  cases hmemo : s.memo with
  | none => rfl
  | some m =>
    rw [addresses_of_memo hmemo] at hsame
    simp only [Option.map_some, SharedMemo.view_congr hsame]

theorem seen_give (hs : s.Sound) (scan : Scan Value) :
    (s.give scan).seen = (.items scan, s.view) := by
  unfold give Handed.seen
  cases scan.failure with
  | some e => rfl
  | none =>
    exact congrArg (Reply.items scan, ·) (view_congr fun a ha => Heap.read_allocate_of_lt (hs a ha))

theorem Sound.keep (hs : s.Sound) {memo : SharedMemo}
    (hmemo : ∀ a ∈ memo.addresses, a = s.heap.size ∨ a ∈ s.addresses) (items : List Value) :
    Sound { s with memo := some memo, heap := (s.heap.allocate items).2 } := by
  intro a ha
  show a < (s.heap.allocate items).2.size
  rw [Heap.size_allocate]
  rcases hmemo a ha with rfl | hold
  · exact Nat.lt_succ_self _
  · exact Nat.lt_succ_of_lt (hs a hold)

/-- What is seen of an answer from the memo, or of one that is kept there. -/
theorem seen_supply (hs : s.Sound) {kept : Option Address} {ask : Calculation (Scan Value)}
    {keep : Address → SharedMemo}
    (hkeep : ∀ a ∈ (keep s.heap.size).addresses, a = s.heap.size ∨ a ∈ s.addresses) :
    Handed.seen <$> s.supply kept ask keep =
      match kept with
      | some a => pure (.items { kept := s.heap.read a }, s.view)
      | none => do
        let scan ← ask
        match scan.failure with
        | some _ => return (.items scan, s.view)
        | none =>
          return (.items scan, s.view.withMemo (some ((keep s.heap.size).view
            (s.heap.allocate scan.kept).2))) := by
  unfold supply
  cases kept with
  | some a => rw [map_pure, seen_give hs]
  | none =>
    simp only [map_bind, view, Recurrence.withMemo_withMemo]
    refine congrArg _ (funext fun scan => ?_)
    obtain ⟨items, refused, failure⟩ := scan
    cases failure with
    | some e => simp only [map_pure, seen_give hs, view]
    | none =>
      simp only [Heap.fst_allocate, Heap.read_allocate_size, map_pure,
        seen_give (hs.keep hkeep items)]
      rfl

theorem addresses_keep_all (hmemo : s.memo = some m) :
    ∀ a ∈ SharedMemo.addresses { m with all := some s.heap.size },
      a = s.heap.size ∨ a ∈ s.addresses := by
  intro a ha
  rw [addresses_of_memo hmemo]
  rcases List.mem_append.1 ha with ha | ha
  · exact .inl (Option.some.inj (Option.mem_toList.1 ha)).symm
  · exact .inr (List.mem_append_right _ ha)

theorem addresses_keep_between (hmemo : s.memo = some m) (key : SpanKey) :
    ∀ a ∈ SharedMemo.addresses { m with between := Memo.record m.between key s.heap.size },
      a = s.heap.size ∨ a ∈ s.addresses := by
  intro a ha
  rw [addresses_of_memo hmemo]
  rcases List.mem_append.1 ha with ha | ha
  · exact .inr (List.mem_append_left _ ha)
  · obtain ⟨entry, hentry, rfl⟩ := List.mem_map.1 ha
    refine (Memo.mem_record hentry).imp_right fun hold => ?_
    exact List.mem_append_right _ (List.mem_map_of_mem hold)

/-- A new list changes nothing that the memo keeps. -/
theorem view_memo_allocate (hs : s.Sound) (hmemo : s.memo = some m) (items : List Value) :
    m.view (s.heap.allocate items).2 = m.view s.heap :=
  SharedMemo.view_congr fun a ha =>
    Heap.read_allocate_of_lt (hs a (by rwa [addresses_of_memo hmemo]))

theorem seen_all (hs : s.Sound) (limit : Option Int) (watcher : Option (Watcher Value)) :
    Handed.seen <$> s.all ctx limit watcher = do
      let (scan, r) ← s.view.allItems ctx limit watcher
      return (.items scan, r) := by
  have hanew (h : s.view.memo = none ∨ limit ≠ none ∨ watcher ≠ none) :
      (Handed.seen <$> do
        let scan ← s.source.collectItems ctx limit watcher
        return s.give scan) = do
        let (scan, r) ← s.view.allItems ctx limit watcher
        return (.items scan, r) := by
    rw [Recurrence.allItems_of_not_kept h, view, Recurrence.collectItems_withMemo]
    simp only [map_bind, bind_assoc, pure_bind, map_pure, seen_give hs]
    rfl
  unfold all
  cases hmemo : s.memo with
  | none => exact hanew (.inl (memo_view_eq_none hmemo))
  | some memo =>
    cases limit with
    | some limit => exact hanew (.inr (.inl (Option.some_ne_none limit)))
    | none =>
      cases watcher with
      | some watcher => exact hanew (.inr (.inr (Option.some_ne_none watcher)))
      | none =>
        have hkept (items : List Value) :
            SharedMemo.view (s.heap.allocate items).2 { memo with all := some s.heap.size } =
              { memo.view s.heap with all := some (.ofItems items) } := by
          rw [← view_memo_allocate hs hmemo items]
          simp [SharedMemo.view]
        have hwork : s.view.collectItems ctx none none = s.source.collectItems ctx none none :=
          Recurrence.collectItems_withMemo _
        dsimp only
        rw [seen_supply hs (addresses_keep_all hmemo),
          Recurrence.allItems_of_memo (view_of_memo hmemo), hwork]
        cases hall : memo.all with
        | some a =>
          simp only [SharedMemo.view, hall, Option.map_some, pure_bind, Recurrence.itemScan_ofItems]
        | none =>
          have hnone : (memo.view s.heap).all = none := by rw [SharedMemo.view, hall]; rfl
          rw [hnone]
          simp only [bind_assoc, hkept]
          refine congrArg _ (funext fun scan => ?_)
          cases scan.failure <;> rfl

theorem seen_between (hs : s.Sound) (after before inclusive : Value)
    (watcher : Option (Watcher LunarDate)) :
    Handed.seen <$> s.between ctx after before inclusive watcher = do
      let (answer, r) ← s.view.between ctx after before inclusive watcher
      return (.items (Recurrence.itemScan answer), r) := by
  unfold between Recurrence.between
  have hdate (value : Value) : s.view.readDate ctx value = s.source.readDate ctx value :=
    Recurrence.readDate_withMemo _ value
  simp only [map_bind, bind_assoc, hdate]
  refine congrArg _ (funext fun start => congrArg _ (funext fun stop => ?_))
  have hwork : s.view.betweenItems ctx start stop inclusive watcher =
      s.source.betweenItems ctx start stop inclusive watcher := Recurrence.betweenItems_withMemo _
  have hpair (c : Calculation (Answer (Scan LunarDate) × Recurrence)) :
      (do
        let (answer, r) ← c
        return (Reply.items (Recurrence.itemScan answer), r)) = do
        let (scan, r) ← (do
          let (answer, r) ← c
          return (Recurrence.itemScan answer, r))
        return (.items scan, r) := by
    simp only [bind_assoc, pure_bind]
  have hanew (h : s.view.memo = none ∨ watcher ≠ none) :
      (Handed.seen <$> do
        let scan ← s.source.betweenItems ctx start stop inclusive watcher
        return s.give scan) = do
        let (answer, r) ← s.view.betweenDates ctx start stop inclusive watcher
        return (.items (Recurrence.itemScan answer), r) := by
    rw [hpair, Recurrence.betweenDates_of_not_kept h, hwork]
    simp only [map_bind, bind_assoc, pure_bind, map_pure, seen_give hs]
  cases hmemo : s.memo with
  | none => exact hanew (.inl (memo_view_eq_none hmemo))
  | some memo =>
    cases watcher with
    | some watcher => exact hanew (.inr (Option.some_ne_none watcher))
    | none =>
      have hkept (key : SpanKey) (items : List Value) :
          SharedMemo.view (s.heap.allocate items).2
              { memo with between := Memo.record memo.between key s.heap.size } =
            { memo.view s.heap with
              between := Memo.record (memo.view s.heap).between key (.ofItems items) } := by
        rw [← view_memo_allocate hs hmemo items]
        simp only [SharedMemo.view]
        rw [← Memo.record_map fun a => Answer.ofItems ((s.heap.allocate items).2.read a),
          Heap.read_allocate_size]
      rw [hpair, Recurrence.betweenDates_of_memo (view_of_memo hmemo), hwork]
      simp only [map_bind, bind_assoc]
      refine congrArg _ (funext fun key => ?_)
      rw [seen_supply hs (addresses_keep_between hmemo key)]
      cases memo.between.lookup key with
      | some a => rfl
      | none =>
        simp only [bind_assoc, hkept]
        refine congrArg _ (funext fun scan => ?_)
        cases scan.failure <;> rfl

/-- Answers that are single dates are kept as they are. -/
theorem view_keepDates (hmemo : s.memo = some m) {kept : Memo}
    (hall : kept.all = (m.view s.heap).all) (hbetween : kept.between = (m.view s.heap).between) :
    (s.keepDates (some kept)).view = s.view.withMemo (some kept) := by
  have hkept : SharedMemo.view s.heap { m with after := kept.after, before := kept.before } =
      kept := by
    obtain ⟨all, after, before, between⟩ := kept
    subst hall hbetween
    rfl
  have hsame : s.keepDates (some kept) =
      { s with memo := some { m with after := kept.after, before := kept.before } } := by
    simp only [keepDates, hmemo]
  rw [hsame, view, view, Recurrence.withMemo_withMemo]
  simp only [Option.map_some, hkept]

theorem keepDates_of_none (hmemo : s.memo = none) (kept : Option Memo) : s.keepDates kept = s := by
  simp only [keepDates, hmemo]

/-- A memo that is as before is kept as it is. -/
theorem view_keepDates_self : (s.keepDates s.view.memo).view = s.view := by
  cases hmemo : s.memo with
  | none => rw [keepDates_of_none hmemo]
  | some m =>
    rw [view_of_memo hmemo, view_keepDates hmemo rfl rfl, ← view_of_memo hmemo]
    rw [view, Recurrence.withMemo_withMemo, Recurrence.memo_withMemo]

/-- A query for one date leaves the recurrence as it was or keeps one more date. -/
def KeepsDate (s : Shared) (c : Calculation (Answer (Option LunarDate) × Recurrence)) : Prop :=
  Handed.seen <$> s.askDate c = do
    let (answer, r) ← c
    return (.date answer, r)

theorem keepsDate_bind {c : Calculation α}
    {f : α → Calculation (Answer (Option LunarDate) × Recurrence)} (h : ∀ a, s.KeepsDate (f a)) : s.KeepsDate (c >>= f) := by
  simp only [KeepsDate, askDate, bind_assoc, map_bind, map_pure] at h ⊢
  exact congrArg _ (funext h)

theorem keepsDate_self (answer : Answer (Option LunarDate)) :
    s.KeepsDate (pure (answer, s.view)) := by
  simp only [KeepsDate, askDate, pure_bind, map_pure, Handed.seen, view_keepDates_self]

theorem keepsDate_withMemo (hmemo : s.memo = some m) (kept : Memo)
    (hall : kept.all = (m.view s.heap).all) (hbetween : kept.between = (m.view s.heap).between)
    (answer : Answer (Option LunarDate)) :
    s.KeepsDate (pure (answer, s.view.withMemo (some kept))) := by
  have hview := view_keepDates hmemo hall hbetween
  have hkept : (s.view.withMemo (some kept)).memo = some kept := Recurrence.memo_withMemo _
  simp only [KeepsDate, askDate, pure_bind, map_pure, Handed.seen, hkept, hview]

/-- A date that the memo has is given, and one that it lacks is worked out and kept among those of
its kind. -/
theorem keepsDate_recall (hmemo : s.memo = some m)
    {get : Except Error (Option (Answer (Option LunarDate)))}
    {ask : Calculation (Option LunarDate)} {set : Option LunarDate → Except Error Memo}
    {goOn : Option (Answer (Option LunarDate)) →
      Calculation (Answer (Option LunarDate) × Recurrence)}
    (hsome : ∀ answer, goOn (some answer) = pure (answer, s.view))
    (hnone : goOn none = do
      let found ← ask
      let memo ← set found
      return (.found found, s.view.withMemo (some memo)))
    (hset : ∀ found kept, set found = .ok kept →
      kept.all = (m.view s.heap).all ∧ kept.between = (m.view s.heap).between) :
    s.KeepsDate ((liftM get : Calculation _) >>= goOn) := by
  refine keepsDate_bind fun kept => ?_
  cases kept with
  | some answer =>
    rw [hsome]
    exact keepsDate_self answer
  | none =>
    rw [hnone]
    refine keepsDate_bind fun found => ?_
    cases hkept : set found with
    | error e => rfl
    | ok kept =>
      obtain ⟨hall, hbetween⟩ := hset found kept hkept
      exact keepsDate_withMemo hmemo kept hall hbetween _

theorem keepsDate_after (value inclusive : Value) :
    s.KeepsDate (s.view.after ctx value inclusive) := by
  unfold Recurrence.after
  refine keepsDate_bind fun date => ?_
  cases hmemo : s.memo with
  | none =>
    rw [memo_view_eq_none hmemo]
    exact keepsDate_bind fun found => keepsDate_self _
  | some m =>
    rw [view_of_memo hmemo]
    refine keepsDate_recall hmemo (fun answer => rfl) rfl fun found kept hkept => ?_
    obtain ⟨key, -, rfl⟩ := Calculation.except_map_eq_ok.1 hkept
    exact ⟨rfl, rfl⟩

theorem keepsDate_before (value inclusive : Value) :
    s.KeepsDate (s.view.before ctx value inclusive) := by
  unfold Recurrence.before
  refine keepsDate_bind fun date => ?_
  cases hmemo : s.memo with
  | none =>
    rw [memo_view_eq_none hmemo]
    exact keepsDate_bind fun found => keepsDate_self _
  | some m =>
    rw [view_of_memo hmemo]
    refine keepsDate_recall hmemo (fun answer => rfl) rfl fun found kept hkept => ?_
    obtain ⟨key, -, rfl⟩ := Calculation.except_map_eq_ok.1 hkept
    exact ⟨rfl, rfl⟩

/-- An addition that forgets the memo is the same for what the memo kept. -/
theorem seen_change (c : Calculation α) {add : RuleSet → α → RuleSet}
    (hmemo : ∀ (set : RuleSet) memo a,
      add { set with memo } a = { add set a with memo := memo.map fun _ => {} }) :
    Handed.seen <$> (do
      let (reply, source) ← s.source.change c add
      return { reply, shared := { s with source, memo := s.memo.map fun _ => {} } }) =
      s.view.change c add := by
  obtain ⟨source, memo, heap⟩ := s
  cases source with
  | rule r => rfl
  | set set =>
    have hadd (a : α) : add { set with memo := memo.map (·.view heap) } a =
        { add set a with memo := (memo.map fun _ => ({} : SharedMemo)).map (·.view heap) } := by
      rw [hmemo]
      cases memo <;> rfl
    simp only [view, Recurrence.withMemo, Recurrence.change, map_bind, bind_assoc, pure_bind,
      map_pure, hadd]
    rfl

theorem seen_add (addition : SetChange) :
    Handed.seen <$> s.add ctx addition = s.view.add ctx addition := by
  cases addition with
  | source source => exact seen_change _ fun _ _ _ => rfl
  | exSource source => exact seen_change _ fun _ _ _ => rfl
  | date date => exact seen_change _ fun _ _ _ => rfl
  | exDate date => exact seen_change _ fun _ _ _ => rfl

/-- **An operation does with shared lists what it does with the recurrence that is seen.** -/
theorem seen_perform (hs : s.Sound) (op : Operation) :
    Handed.seen <$> s.perform ctx op = s.view.perform ctx op := by
  cases op with
  | all limit watcher => exact seen_all hs limit watcher
  | between after before inclusive watcher => exact seen_between hs after before inclusive watcher
  | after date inclusive => exact keepsDate_after date inclusive
  | before date inclusive => exact keepsDate_before date inclusive
  | add addition => exact seen_add addition

/-! ### What is not touched -/

/-- A recurrence goes on with more lists: those that there were are as before, and the memo keeps
none of them that it did not keep. -/
structure Extends (s t : Shared) : Prop where
  size : s.heap.size ≤ t.heap.size
  read : ∀ a < s.heap.size, t.heap.read a = s.heap.read a
  sound : t.Sound
  addresses : ∀ a ∈ t.addresses, a < s.heap.size → a ∈ s.addresses
  memo : t.memo.isSome = s.memo.isSome

/-- The list that is handed over is the one of the reply, and it is new and not kept. -/
structure Grows (s : Shared) (given : Handed) : Prop extends Extends s given.shared where
  list : given.list.map given.shared.heap.read = given.reply.list?
  fresh : ∀ a ∈ given.list, s.heap.size ≤ a ∧ a < given.shared.heap.size ∧
    a ∉ given.shared.addresses

theorem extends_self (hs : s.Sound) : s.Extends s :=
  ⟨le_rfl, fun _ _ => rfl, hs, fun _ ha _ => ha, rfl⟩

theorem Extends.give (h : s.Extends t) (scan : Scan Value) : s.Grows (t.give scan) := by
  unfold Shared.give
  cases hfailure : scan.failure with
  | some e =>
    have hlist : (Reply.items scan).list? = none := by
      rw [Reply.list?, Scan.result, hfailure]
      rfl
    exact { h with list := hlist.symm, fresh := by simp }
  | none =>
    have hlist : (Reply.items scan).list? = some scan.kept := by
      rw [Reply.list?, Scan.result, hfailure]
      rfl
    have hsize : (t.heap.allocate scan.kept).2.size = t.heap.size + 1 := Heap.size_allocate
    have hbelow : ∀ a ∈ t.addresses, a < t.heap.size := h.sound
    have hstart := h.size
    refine ⟨⟨?_, fun a ha => ?_, fun a ha => ?_, h.addresses, h.memo⟩, ?_, ?_⟩
    · exact Nat.le_trans hstart (hsize ▸ Nat.le_succ _)
    · exact (Heap.read_allocate_of_lt (Nat.lt_of_lt_of_le ha hstart)).trans (h.read a ha)
    · exact Nat.lt_trans (hbelow a ha) (hsize ▸ Nat.lt_succ_self _)
    · rw [hlist, Option.map_some, Heap.fst_allocate, Heap.read_allocate_size]
    · intro a ha
      obtain rfl := Option.some.inj ha
      exact ⟨hstart, hsize ▸ Nat.lt_succ_self _, fun hkept => Nat.lt_irrefl _ (hbelow _ hkept)⟩

theorem extends_keep (hs : s.Sound) (hmemo : s.memo = some m) {kept : SharedMemo}
    (hkept : ∀ a ∈ kept.addresses, a = s.heap.size ∨ a ∈ s.addresses) (items : List Value) :
    s.Extends { s with memo := some kept, heap := (s.heap.allocate items).2 } where
  size := by
    rw [Heap.size_allocate]
    exact Nat.le_succ _
  read := fun _ ha => Heap.read_allocate_of_lt ha
  sound := hs.keep hkept items
  addresses := fun a ha hlt => (hkept a ha).resolve_left (Nat.ne_of_lt hlt)
  memo := by rw [hmemo]; rfl

theorem grows_supply (hs : s.Sound) (hmemo : s.memo = some m) {kept : Option Address}
    {ask : Calculation (Scan Value)} {keep : Address → SharedMemo}
    (hkeep : ∀ a ∈ (keep s.heap.size).addresses, a = s.heap.size ∨ a ∈ s.addresses)
    (h : (s.supply kept ask keep).outcome answers = .ok given) : s.Grows given := by
  unfold supply at h
  cases kept with
  | some a =>
    obtain rfl := Except.ok.inj h
    exact (extends_self hs).give _
  | none =>
    obtain ⟨scan, -, h⟩ := Calculation.outcome_bind_eq_ok.1 h
    cases hfailure : scan.failure with
    | some e =>
      rw [hfailure] at h
      obtain rfl := Except.ok.inj h
      exact (extends_self hs).give _
    | none =>
      rw [hfailure] at h
      obtain rfl := Except.ok.inj h
      exact (extends_keep hs hmemo hkeep scan.kept).give _

theorem grows_give_of_bind (hs : s.Sound) {c : Calculation (Scan Value)}
    (h : (do
      let scan ← c
      return s.give scan : Calculation Handed).outcome answers = .ok given) : s.Grows given := by
  obtain ⟨scan, -, h⟩ := Calculation.outcome_bind_eq_ok.1 h
  obtain rfl := Except.ok.inj h
  exact (extends_self hs).give scan

theorem grows_all (hs : s.Sound) {limit : Option Int} {watcher : Option (Watcher Value)}
    (h : (s.all ctx limit watcher).outcome answers = .ok given) : s.Grows given := by
  unfold all at h
  split at h
  · rename_i memo hmemo
    exact grows_supply hs hmemo (addresses_keep_all hmemo) h
  · exact grows_give_of_bind hs h

theorem grows_between (hs : s.Sound) {after before inclusive : Value}
    {watcher : Option (Watcher LunarDate)}
    (h : (s.between ctx after before inclusive watcher).outcome answers = .ok given) :
    s.Grows given := by
  obtain ⟨start, -, h⟩ := Calculation.outcome_bind_eq_ok.1 h
  obtain ⟨stop, -, h⟩ := Calculation.outcome_bind_eq_ok.1 h
  cases hmemo : s.memo with
  | none =>
    rw [hmemo] at h
    exact grows_give_of_bind hs h
  | some memo =>
    rw [hmemo] at h
    cases watcher with
    | some watcher => exact grows_give_of_bind hs h
    | none =>
      obtain ⟨key, -, h⟩ := Calculation.outcome_bind_eq_ok.1 h
      exact grows_supply hs hmemo (addresses_keep_between hmemo key) h

theorem extends_keepDates (hs : s.Sound) (kept : Option Memo) : s.Extends (s.keepDates kept) := by
  unfold keepDates
  split
  · rename_i m kept hmemo
    have haddresses : addresses { s with
        memo := some { m with after := kept.after, before := kept.before } } = s.addresses := by
      rw [addresses_of_memo hmemo]
      rfl
    refine ⟨le_rfl, fun _ _ => rfl, ?_, fun a ha _ => haddresses ▸ ha, by rw [hmemo]; rfl⟩
    intro a ha
    exact hs a (haddresses ▸ ha)
  · exact extends_self hs

theorem grows_askDate (hs : s.Sound) {c : Calculation (Answer (Option LunarDate) × Recurrence)}
    (h : (s.askDate c).outcome answers = .ok given) : s.Grows given := by
  obtain ⟨⟨answer, r⟩, -, h⟩ := Calculation.outcome_bind_eq_ok.1 h
  obtain rfl := Except.ok.inj h
  exact { extends_keepDates hs r.memo with list := rfl, fresh := by simp }

theorem grows_add {addition : SetChange} (h : (s.add ctx addition).outcome answers = .ok given) :
    s.Grows given := by
  obtain ⟨⟨reply, source⟩, hadd, h⟩ := Calculation.outcome_bind_eq_ok.1 h
  obtain rfl := Except.ok.inj h
  have hreply : reply = .nothing := Recurrence.reply_of_add hadd
  have haddresses : addresses { s with source, memo := s.memo.map fun _ => {} } = [] := by
    unfold addresses
    cases s.memo <;> rfl
  have hnone (a : Address) :
      a ∉ addresses { s with source, memo := s.memo.map fun _ => ({} : SharedMemo) } := by
    rw [haddresses]
    exact List.not_mem_nil
  exact
    { size := le_rfl
      read := fun _ _ => rfl
      sound := fun a ha => absurd ha (hnone a)
      addresses := fun a ha => absurd ha (hnone a)
      memo := Option.isSome_map
      list := by rw [hreply]; rfl
      fresh := by simp }

/-- **An operation only adds to the lists**, and hands over one that is new and not kept. -/
theorem grows_perform (hs : s.Sound) {op : Operation}
    (h : (s.perform ctx op).outcome answers = .ok given) : s.Grows given := by
  cases op with
  | all limit watcher => exact grows_all hs h
  | between after before inclusive watcher => exact grows_between hs h
  | after date inclusive => exact grows_askDate hs h
  | before date inclusive => exact grows_askDate hs h
  | add addition => exact grows_add h

end Shared

end HijriRecurrence
