import HijriRecurrence.Lunar.Date
import HijriRecurrence.Occurrence.Stream

/-!
# Queries on a walk

Four queries look along a walk in increasing order and stop as soon as they can: all occurrences up
to a number of them, those between two dates, the first one after a date, and the last one before
one.

A caller may watch the first two: it is shown each occurrence with its position and may refuse it,
which ends the query before that occurrence.  A `Scan` tells what was kept, what was refused, and
what cut the query short.
-/

namespace HijriRecurrence

/-- A caller's answer to an occurrence at a position: whether it is refused. -/
abbrev Watcher (α : Type) := α → Nat → Bool

/-- How a query along a walk went. -/
structure Scan (α : Type) where
  kept : List α := []
  refused : Option α := none
  failure : Option Error := none

namespace Scan

variable {α β : Type}

/-- What the caller was shown, with positions. -/
def shown (s : Scan α) : List (α × Nat) := (s.kept ++ s.refused.toList).zipIdx

/-- What a scan comes to. -/
def result (s : Scan α) : Except Error (List α) :=
  match s.failure with
  | some e => .error e
  | none => .ok s.kept

def map (f : α → β) (s : Scan α) : Scan β :=
  { kept := s.kept.map f, refused := s.refused.map f, failure := s.failure }

end Scan

namespace Occurrences

variable {α : Type}

def isRefused (watcher : Option (Watcher α)) (a : α) (position : Nat) : Bool :=
  match watcher with
  | some refuses => refuses a position
  | none => false

/-- Whether a number of occurrences is enough. -/
def isEnough (limit : Option Int) (count : Nat) : Bool :=
  match limit with
  | some limit => decide (limit ≤ count)
  | none => false

/-- All occurrences, up to a number of them; the walk is looked at once more to find that there is
an occurrence too many.  Those kept so far stand last one first, and there are `count` of them. -/
def collectOnto (limit : Option Int) (watcher : Option (Watcher α)) (kept : List α)
    (count : Nat) : Occurrences α → Calculation (Scan α)
  | done => pure { kept := kept.reverse }
  | failed e => pure { kept := kept.reverse, failure := some e }
  | item head rest =>
    if isEnough limit count then pure { kept := kept.reverse }
    else if isRefused watcher head count then pure { kept := kept.reverse, refused := some head }
    else collectOnto limit watcher (head :: kept) (count + 1) (rest ())
  | ask inquiry next =>
    .ask inquiry fun answer => collectOnto limit watcher kept count (next answer)

/-- All occurrences, up to a number of them. -/
def collect (walk : Occurrences α) (limit : Option Int := none)
    (watcher : Option (Watcher α) := none) : Calculation (Scan α) :=
  collectOnto limit watcher [] 0 walk

/-- Whether a date is after another one, or is the same when the ends count. -/
def isAfter (inclusive : Bool) (bound d : LunarDate) : Bool :=
  decide (bound.toLunarDay < d.toLunarDay) ||
    (inclusive && decide (d.toLunarDay = bound.toLunarDay))

/-- Whether a date is before another one, or is the same when the ends count. -/
def isBefore (inclusive : Bool) (bound d : LunarDate) : Bool :=
  decide (d.toLunarDay < bound.toLunarDay) ||
    (inclusive && decide (d.toLunarDay = bound.toLunarDay))

/-- Occurrences between two dates.  Those kept so far stand last one first, and there are `count` of
them. -/
def betweenOnto (after before : LunarDate) (inclusive : Bool)
    (watcher : Option (Watcher LunarDate)) (kept : List LunarDate) (count : Nat) :
    Occurrences LunarDate → Calculation (Scan LunarDate)
  | done => pure { kept := kept.reverse }
  | failed e => pure { kept := kept.reverse, failure := some e }
  | item head rest =>
    if !isBefore inclusive before head then pure { kept := kept.reverse }
    else if isAfter inclusive after head then
      if isRefused watcher head count then pure { kept := kept.reverse, refused := some head }
      else betweenOnto after before inclusive watcher (head :: kept) (count + 1) (rest ())
    else betweenOnto after before inclusive watcher kept count (rest ())
  | ask inquiry next =>
    .ask inquiry fun answer => betweenOnto after before inclusive watcher kept count (next answer)

def between (walk : Occurrences LunarDate) (after before : LunarDate) (inclusive : Bool)
    (watcher : Option (Watcher LunarDate) := none) : Calculation (Scan LunarDate) :=
  betweenOnto after before inclusive watcher [] 0 walk

def firstAfter (walk : Occurrences LunarDate) (bound : LunarDate) (inclusive : Bool) :
    Calculation (Option LunarDate) :=
  match walk with
  | done => pure none
  | failed e => throw e
  | item head rest =>
    if isAfter inclusive bound head then pure (some head)
    else (rest ()).firstAfter bound inclusive
  | ask inquiry next => .ask inquiry fun answer => (next answer).firstAfter bound inclusive

/-- The last occurrence before a date, or else what was found already. -/
def lastBeforeFrom (bound : LunarDate) (inclusive : Bool) (found : Option LunarDate) :
    Occurrences LunarDate → Calculation (Option LunarDate)
  | done => pure found
  | failed e => throw e
  | item head rest =>
    if isBefore inclusive bound head then
      lastBeforeFrom bound inclusive (some head) (rest ())
    else pure found
  | ask inquiry next =>
    .ask inquiry fun answer => lastBeforeFrom bound inclusive found (next answer)

def lastBefore (walk : Occurrences LunarDate) (bound : LunarDate) (inclusive : Bool) :
    Calculation (Option LunarDate) :=
  lastBeforeFrom bound inclusive none walk

end Occurrences

end HijriRecurrence
