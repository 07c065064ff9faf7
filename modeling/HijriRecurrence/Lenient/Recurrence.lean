import HijriRecurrence.Lenient.Value
import HijriRecurrence.Recurrence.Query

/-!
# Sets that draw on values of any kind

A set may be given a text, a sequence of numbers or another set in the place of a rule.  Such a set
is walked item by item: its items are merged as long as they can be compared, and a sequence that is
left alone is passed on as it is, whatever its items are.

* `RuleSet.itemWalk` is the walk along the items of a set; a set of rules has its dates as items;
* `Recurrence.allItems` is the query for all of them;
* `Recurrence.among` is the context in which recurrences stand for their items.
-/

namespace HijriRecurrence

namespace Occurrences

/-- The merge of a walk that is at an item with a second walk; what cannot be compared fails. -/
def mergeItemHead (head : Value) (others : Occurrences Value → Occurrences Value) :
    Occurrences Value → Occurrences Value
  | done => item head fun _ => others done
  | failed e => failed e
  | item next rest =>
    match next.isLess head with
    | .error e => failed e
    | .ok true => item next fun _ => mergeItemHead head others (rest ())
    | .ok false => item head fun _ => others (item next rest)
  | ask inquiry next => ask inquiry fun answer => mergeItemHead head others (next answer)

def mergeItems2 : Occurrences Value → Occurrences Value → Occurrences Value
  | done, second => second
  | failed e, _ => failed e
  | item head rest, second =>
    mergeItemHead head (fun second => mergeItems2 (rest ()) second) second
  | ask inquiry next, second => ask inquiry fun answer => mergeItems2 (next answer) second

def mergeItems (walks : List (Occurrences Value)) : Occurrences Value :=
  walks.foldr mergeItems2 done

/-- An excluding walk from its first item on that is not less than some value.  Nothing, as an item,
ends it. -/
def dropItemsBelow (v : Value) : Occurrences Value → Calculation (Occurrences Value)
  | done => pure done
  | failed e => throw e
  | item .null _ => pure done
  | item head rest =>
    match head.isLess v with
    | .error e => throw e
    | .ok true => dropItemsBelow v (rest ())
    | .ok false => pure (item head rest)
  | ask inquiry next => .ask inquiry fun answer => dropItemsBelow v (next answer)

def isAtItem (v : Value) : Occurrences Value → Bool
  | item head _ => head.same v
  | _ => false

/-- The items of a walk that are written otherwise than the one before and that an excluding walk
does not have.  `last` is the text of the item looked at last. -/
def excludeItems : Occurrences Value → Option String → Occurrences Value → Occurrences Value
  | done, _, _ => done
  | failed e, _, _ => failed e
  | item head rest, last, excluded =>
    if last = some head.plain then excludeItems (rest ()) last excluded
    else
      after (dropItemsBelow head excluded) fun excluded =>
        if excluded.isAtItem head then excludeItems (rest ()) (some head.plain) excluded
        else item head fun _ => excludeItems (rest ()) (some head.plain) excluded
  | ask inquiry next, last, excluded =>
    ask inquiry fun answer => excludeItems (next answer) last excluded

end Occurrences

/-- The walk along the items of a source; those of a rule are its dates. -/
def Source.itemWalk (ctx : Context) : Source → Except Error (Occurrences Value)
  | .rule r => .ok ((r.options.occurrences ctx).map .lunar)
  | .other value => Source.items ctx value

def Source.isRule : Source → Bool
  | .rule _ => true
  | .other _ => false

namespace RuleSet

/-- The walks along the items of sources and dates, sources first. -/
def itemWalks (ctx : Context) (sources : List Source) (dates : List LunarDate) :
    Except Error (List (Occurrences Value)) :=
  (sources.mapM (Source.itemWalk ctx)).map
    (· ++ [(Occurrences.ofList (LunarDate.sortDates dates)).map .lunar])

def hasOnlyRules (s : RuleSet) : Bool := (s.rules ++ s.exRules).all Source.isRule

/-- The walk along the items of a set.  The first excluded item is looked for before the first
included one. -/
def itemWalk (ctx : Context) (s : RuleSet) : Occurrences Value :=
  if s.hasOnlyRules then (s.occurrences ctx).map .lunar
  else
    match itemWalks ctx s.rules s.dates, itemWalks ctx s.exRules s.exDates with
    | .ok included, .ok excluded =>
      .after ((Occurrences.mergeItems excluded).dropWhile fun _ => false) fun excluded =>
        .excludeItems (.mergeItems included) none excluded
    | .error e, _ => .failed e
    | .ok _, .error e => .failed e

/-- A set of rules has its dates as items. -/
theorem itemWalk_of_hasOnlyRules (ctx : Context) {s : RuleSet} (h : s.hasOnlyRules = true) :
    s.itemWalk ctx = (s.occurrences ctx).map .lunar := by
  simp [itemWalk, h]

end RuleSet

namespace Recurrence

def itemWalk (ctx : Context) : Recurrence → Occurrences Value
  | rule r => (r.options.occurrences ctx).map .lunar
  | set s => s.itemWalk ctx

/-- The context in which values stand for recurrences by their numbers.  A recurrence may draw items
from another one, that from a third, and so on to a given depth; what is deeper is made of
itself. -/
def among (recurrences : Nat → Option Recurrence) (ctx : Context) : Nat → Context
  | 0 =>
    { ctx with
      occurrencesOf := fun n => (recurrences n).map fun _ => .failed .madeOfItself
      textOf := fun n => (recurrences n).map fun _ => .error .madeOfItself }
  | depth + 1 =>
    let inner := among recurrences ctx depth
    { ctx with
      occurrencesOf := fun n => (recurrences n).map (·.itemWalk inner)
      textOf := fun n => (recurrences n).map (·.text inner) }

/-- Whether a recurrence draws on rules only, so that its items are dates. -/
def hasOnlyDates : Recurrence → Bool
  | rule _ => true
  | set s => s.hasOnlyRules

def itemScan : Answer (Scan LunarDate) → Scan Value
  | .found scan => scan.map .lunar
  | .given value => { kept := value.items }

def watchDates (watcher : Watcher Value) : Watcher LunarDate := fun d => watcher (.lunar d)

def allItems (ctx : Context) (r : Recurrence) (limit : Option Int)
    (watcher : Option (Watcher Value)) : Calculation (Scan Value × Recurrence) := do
  if r.hasOnlyDates then
    let (answer, r) ← r.all ctx limit (watcher.map watchDates)
    return (itemScan answer, r)
  match r.memo, limit, watcher with
  | some memo, none, none =>
    match memo.all with
    | some answer => return (itemScan (answer.map fun kept => { kept }), r)
    | none =>
      let scan ← (r.itemWalk ctx).collect
      match scan.failure with
      | some _ => return (scan, r)
      | none => return (scan, r.withMemo (some { memo with all := some (.ofItems scan.kept) }))
  | _, _, _ =>
    let scan ← (r.itemWalk ctx).collect limit watcher
    return (scan, r)

/-- All items, up to a number of them, as civil dates. -/
def allItemsCivil (ctx : Context) (r : Recurrence) (limit : Option Int)
    (watcher : Option (Watcher Value)) :
    Calculation ((Except Error (List CivilDate) × Scan Value) × Recurrence) := do
  if r.hasOnlyDates then
    let ((dates, answer), r) ← r.allCivil ctx limit (watcher.map watchDates)
    return ((dates, itemScan answer), r)
  let (scan, r) ← r.allItems ctx limit watcher
  let dates ← (do civilItems ctx (← scan.result) : Calculation (List CivilDate)).attempt
  return ((dates, scan), r)

def civilItemWalk (ctx : Context) (r : Recurrence) : Occurrences CivilDate :=
  if r.hasOnlyDates then r.civilOccurrences ctx
  else
    (r.itemWalk ctx).mapM fun
      | .lunar d => d.toCivil ctx
      | _ => throw Error.lacksPart

end Recurrence

end HijriRecurrence
