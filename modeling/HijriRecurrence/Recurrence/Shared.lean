import HijriRecurrence.Lenient.Recurrence

/-!
# Recurrences in a program that shares lists

A list is an object of the program: whoever has its address sees what others change in it.  The memo
of a recurrence keeps lists, and its callers are given lists, which they may change.  A query hands
over a list that is the caller's own, and so a copy where the memo keeps the list.

* `Heap` has the lists of a program, by address;
* `Shared` is a recurrence whose memo keeps lists by address, and `Shared.view` is the recurrence
  that it comes to, with the lists as they are now;
* `Recurrence.perform` is what an operation does with a recurrence, and `Shared.perform` what it
  does with one that shares lists, with the list that it hands over;
* `Session` is a recurrence with all that its caller was given.  The caller performs operations and
  changes lists that it has (`Event`).
-/

namespace HijriRecurrence

/-! ### Operations -/

/-- What a caller adds to a set. -/
inductive SetChange where
  | source (source : Source)
  | exSource (source : Source)
  | date (date : Value)
  | exDate (date : Value)

/-- Something that a caller does with a recurrence. -/
inductive Operation where
  | all (limit : Option Int) (watcher : Option (Watcher Value))
  | between (after before inclusive : Value) (watcher : Option (Watcher LunarDate))
  | after (date inclusive : Value)
  | before (date inclusive : Value)
  | add (addition : SetChange)

/-- Whether a memo can know an operation, if it has to: what is given for whether the ends count has
to be a key then. -/
def Operation.isKeyed : Operation → Bool
  | between _ _ inclusive none | after _ inclusive | before _ inclusive => inclusive.isKey
  | _ => true

/-- What an operation that does not fail gives its caller. -/
inductive Reply where
  | items (scan : Scan Value)
  | date (answer : Answer (Option LunarDate))
  | nothing

def Reply.list? : Reply → Option (List Value)
  | items scan => scan.result.toOption
  | date _ | nothing => none

namespace Recurrence

/-- All items, up to a number of them, worked out anew. -/
def collectItems (ctx : Context) (r : Recurrence) (limit : Option Int)
    (watcher : Option (Watcher Value)) : Calculation (Scan Value) :=
  if r.hasOnlyDates then do
    let scan ← (r.occurrences ctx).collect limit (watcher.map watchDates)
    return scan.map .lunar
  else (r.itemWalk ctx).collect limit watcher

/-- The dates between two dates, worked out anew. -/
def betweenItems (ctx : Context) (r : Recurrence) (start stop : LunarDate) (inclusive : Value)
    (watcher : Option (Watcher LunarDate)) : Calculation (Scan Value) := do
  let scan ← (r.occurrences ctx).between start stop inclusive.truthy watcher
  return scan.map .lunar

/-- Something is added to a set, once it is known; a rule takes no additions. -/
def change {α : Type} (r : Recurrence) (added : Calculation α) (add : RuleSet → α → RuleSet) :
    Calculation (Reply × Recurrence) :=
  match r with
  | rule _ => throw .lacksPart
  | set s => do
    let a ← added
    return (.nothing, set (add s a))

def add (ctx : Context) (r : Recurrence) : SetChange → Calculation (Reply × Recurrence)
  | .source source => r.change (pure source) RuleSet.addSource
  | .exSource source => r.change (pure source) RuleSet.addExSource
  | .date date => r.change (LunarDate.ofValue ctx date none) RuleSet.addDate
  | .exDate date => r.change (LunarDate.ofValue ctx date none) RuleSet.addExDate

def perform (ctx : Context) (r : Recurrence) : Operation → Calculation (Reply × Recurrence)
  | .all limit watcher => do
    let (scan, r) ← r.allItems ctx limit watcher
    return (.items scan, r)
  | .between after before inclusive watcher => do
    let (answer, r) ← r.between ctx after before inclusive watcher
    return (.items (itemScan answer), r)
  | .after date inclusive => do
    let (answer, r) ← r.after ctx date inclusive
    return (.date answer, r)
  | .before date inclusive => do
    let (answer, r) ← r.before ctx date inclusive
    return (.date answer, r)
  | .add addition => r.add ctx addition

end Recurrence

/-! ### Lists by address -/

abbrev Address := Nat

/-- The lists of a program, by address. -/
structure Heap where
  lists : List (List Value) := []

namespace Heap

def size (h : Heap) : Nat := h.lists.length

def read (h : Heap) (a : Address) : List Value := h.lists.getD a []

/-- A list of its own, with its address. -/
def allocate (h : Heap) (items : List Value) : Address × Heap := (h.size, ⟨h.lists ++ [items]⟩)

/-- The list at an address is changed in place. -/
def modify (h : Heap) (a : Address) (change : List Value → List Value) : Heap :=
  ⟨h.lists.modify a change⟩

end Heap

/-- A memo that keeps lists by their addresses. -/
structure SharedMemo where
  all : Option Address := none
  after : List (NearKey × Answer (Option LunarDate)) := []
  before : List (NearKey × Answer (Option LunarDate)) := []
  between : List (SpanKey × Address) := []

namespace SharedMemo

def addresses (m : SharedMemo) : List Address := m.all.toList ++ m.between.map (·.2)

/-- The memo with the lists that stand at its addresses. -/
def view (h : Heap) (m : SharedMemo) : Memo where
  all := m.all.map fun a => .ofItems (h.read a)
  after := m.after
  before := m.before
  between := m.between.map fun entry => (entry.1, .ofItems (h.read entry.2))

end SharedMemo

/-- A recurrence whose memo, if it keeps one, shares lists with the rest of the program. -/
structure Shared where
  source : Recurrence
  memo : Option SharedMemo := none
  heap : Heap := {}

/-- What an operation gives its caller: a reply, the address of the list in it, and the recurrence
afterwards. -/
structure Handed where
  reply : Reply
  list : Option Address := none
  shared : Shared

namespace Shared

/-- The recurrence with its lists as they are now. -/
def view (s : Shared) : Recurrence := s.source.withMemo (s.memo.map (·.view s.heap))

def addresses (s : Shared) : List Address := (s.memo.map (·.addresses)).getD []

/-- What was found is handed over in a list of the caller's own. -/
def give (s : Shared) (scan : Scan Value) : Handed :=
  match scan.failure with
  | some _ => { reply := .items scan, shared := s }
  | none =>
    let (a, heap) := s.heap.allocate scan.kept
    { reply := .items scan, list := some a, shared := { s with heap } }

/-- A list that the memo keeps is copied for the caller; where it keeps none, what is asked for is
kept first, unless that fails. -/
def supply (s : Shared) (kept : Option Address) (ask : Calculation (Scan Value))
    (keep : Address → SharedMemo) : Calculation Handed :=
  match kept with
  | some a => pure (s.give { kept := s.heap.read a })
  | none => do
    let scan ← ask
    match scan.failure with
    | some _ => return s.give scan
    | none =>
      let (a, heap) := s.heap.allocate scan.kept
      return give { s with memo := some (keep a), heap } { scan with kept := heap.read a }

def all (ctx : Context) (s : Shared) (limit : Option Int) (watcher : Option (Watcher Value)) :
    Calculation Handed :=
  match s.memo, limit, watcher with
  | some memo, none, none =>
    s.supply memo.all (s.source.collectItems ctx none none) fun a => { memo with all := some a }
  | _, _, _ => do
    let scan ← s.source.collectItems ctx limit watcher
    return s.give scan

def between (ctx : Context) (s : Shared) (after before inclusive : Value)
    (watcher : Option (Watcher LunarDate)) : Calculation Handed := do
  let start ← s.source.readDate ctx after
  let stop ← s.source.readDate ctx before
  match s.memo, watcher with
  | some memo, none =>
    let key ← Memo.spanKey start.text stop.text inclusive
    s.supply (memo.between.lookup key) (s.source.betweenItems ctx start stop inclusive none)
      fun a => { memo with between := Memo.record memo.between key a }
  | _, _ =>
    let scan ← s.source.betweenItems ctx start stop inclusive watcher
    return s.give scan

/-- The recurrence with the answers of a memo that are single dates.  Dates cannot be changed in
place. -/
def keepDates (s : Shared) (memo : Option Memo) : Shared :=
  match s.memo, memo with
  | some m, some kept =>
    { s with memo := some { m with after := kept.after, before := kept.before } }
  | _, _ => s

def askDate (s : Shared) (c : Calculation (Answer (Option LunarDate) × Recurrence)) :
    Calculation Handed := do
  let (answer, r) ← c
  return { reply := .date answer, shared := s.keepDates r.memo }

/-- An addition, which forgets the memo. -/
def add (ctx : Context) (s : Shared) (addition : SetChange) : Calculation Handed := do
  let (reply, source) ← s.source.add ctx addition
  return { reply, shared := { s with source, memo := s.memo.map fun _ => {} } }

def perform (ctx : Context) (s : Shared) : Operation → Calculation Handed
  | .all limit watcher => s.all ctx limit watcher
  | .between after before inclusive watcher => s.between ctx after before inclusive watcher
  | .after date inclusive => s.askDate (s.view.after ctx date inclusive)
  | .before date inclusive => s.askDate (s.view.before ctx date inclusive)
  | .add addition => s.add ctx addition

end Shared

/-! ### Sessions -/

/-- Something that happens to a recurrence, or to a list that its caller was given. -/
inductive Event where
  | perform (op : Operation)
  /-- The list that the caller was given by the operation at an index is changed in place. -/
  | edit (index : Nat) (change : List Value → List Value)

/-- An operation with what the caller was given for it. -/
structure Exchange where
  op : Operation
  reply : Except Error Reply
  list : Option Address := none

/-- A recurrence with all that its caller was given. -/
structure Session where
  shared : Shared
  log : List Exchange := []

namespace Session

def start (r : Recurrence) (keepsMemo : Bool) : Session where
  shared := { source := r, memo := if keepsMemo then some {} else none }

/-- The list that the caller was given by the operation at an index. -/
def held (s : Session) (index : Nat) : Option Address := (s.log[index]?).bind (·.list)

/-- A session goes on with an operation.  One that fails leaves the recurrence as it was. -/
def perform (ctx : Context) (answers : Answers) (s : Session) (op : Operation) : Session :=
  match (s.shared.perform ctx op).outcome answers with
  | .ok given =>
    { shared := given.shared
      log := s.log ++ [{ op, reply := .ok given.reply, list := given.list }] }
  | .error e => { s with log := s.log ++ [{ op, reply := .error e }] }

def edit (s : Session) (index : Nat) (change : List Value → List Value) : Session :=
  match s.held index with
  | some a => { s with shared := { s.shared with heap := s.shared.heap.modify a change } }
  | none => s

def step (ctx : Context) (answers : Answers) (s : Session) : Event → Session
  | .perform op => s.perform ctx answers op
  | .edit index change => s.edit index change

def run (ctx : Context) (answers : Answers) (s : Session) (history : List Event) : Session :=
  history.foldl (step ctx answers) s

end Session

end HijriRecurrence
