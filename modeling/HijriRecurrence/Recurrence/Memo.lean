import HijriRecurrence.Error

/-!
# Memoised queries

A memo keeps the answers of queries already made.  A query is known by the texts of its dates and by
what was given for whether its ends count: two given values that are equal ask the same, and a value
that cannot be a key asks nothing that could be kept.  An answer that is nothing is kept too, and
differs from no answer.

What a query works out is an answer that was found.  Callers may also put answers into a memo, of
any kind, and these are believed (`Answer`).
-/

namespace HijriRecurrence

/-- The query for the occurrence next to a date. -/
structure NearKey where
  date : String
  inclusive : Value
deriving Repr

instance : BEq NearKey := ⟨fun a b => a.date == b.date && a.inclusive.same b.inclusive⟩

/-- The query for the occurrences between two dates. -/
structure SpanKey where
  after : String
  before : String
  inclusive : Value
deriving Repr

instance : BEq SpanKey :=
  ⟨fun a b => a.after == b.after && a.before == b.before && a.inclusive.same b.inclusive⟩

/-- An answer in a memo: one that was found, or what a caller put in the place of one. -/
inductive Answer (α : Type) where
  | found (result : α)
  | given (value : Value)
deriving Repr

namespace Answer

variable {α β : Type}

def map (f : α → β) : Answer α → Answer β
  | found result => found (f result)
  | given value => given value

def value (f : α → Value) : Answer α → Value
  | found result => f result
  | given value => value

/-- The answer that a value gives in the place of a date or nothing. -/
def ofDate : Value → Answer (Option LunarDate)
  | .null => found none
  | .lunar d => found (some d)
  | v => given v

/-- The answer that some items give in the place of dates. -/
def ofItems (items : List Value) : Answer (List LunarDate) :=
  match items.mapM Value.lunar? with
  | some dates => found dates
  | none => given (.list items)

/-- The answer that a value gives in the place of some dates. -/
def ofDates : Value → Answer (List LunarDate)
  | .list items => ofItems items
  | v => given v

end Answer

/-- The answers of queries already made. -/
structure Memo where
  all : Option (Answer (List LunarDate)) := none
  after : List (NearKey × Answer (Option LunarDate)) := []
  before : List (NearKey × Answer (Option LunarDate)) := []
  /-- An answer that is nothing counts as none here. -/
  between : List (SpanKey × Answer (List LunarDate)) := []
deriving Repr

namespace Memo

variable {κ β : Type} [BEq κ]

/-- Table with one answer added; the answer to a query that was made before takes the place of the
earlier one. -/
def record (table : List (κ × β)) (key : κ) (answer : β) : List (κ × β) :=
  if (table.lookup key).isSome then
    table.map fun entry => if key == entry.1 then (entry.1, answer) else entry
  else table ++ [(key, answer)]

/-- Refuses a value that cannot be part of a key. -/
def checkKey (inclusive : Value) : Except Error Unit :=
  if inclusive.isKey then .ok () else .error .unhashable

/-- The query for the occurrence next to a date. -/
def nearKey (date : String) (inclusive : Value) : Except Error NearKey :=
  (checkKey inclusive).map fun _ => ⟨date, inclusive⟩

/-- The query for the occurrences between two dates. -/
def spanKey (after before : String) (inclusive : Value) : Except Error SpanKey :=
  (checkKey inclusive).map fun _ => ⟨after, before, inclusive⟩

def getAfter (m : Memo) (date : String) (inclusive : Value) :
    Except Error (Option (Answer (Option LunarDate))) :=
  (nearKey date inclusive).map fun key => m.after.lookup key

def setAfter (m : Memo) (date : String) (inclusive : Value)
    (answer : Answer (Option LunarDate)) : Except Error Memo :=
  (nearKey date inclusive).map fun key => { m with after := record m.after key answer }

def getBefore (m : Memo) (date : String) (inclusive : Value) :
    Except Error (Option (Answer (Option LunarDate))) :=
  (nearKey date inclusive).map fun key => m.before.lookup key

def setBefore (m : Memo) (date : String) (inclusive : Value)
    (answer : Answer (Option LunarDate)) : Except Error Memo :=
  (nearKey date inclusive).map fun key => { m with before := record m.before key answer }

def getBetween (m : Memo) (after before : String) (inclusive : Value) :
    Except Error (Option (Answer (List LunarDate))) :=
  (spanKey after before inclusive).map fun key =>
    match m.between.lookup key with
    | some (.given .null) => none
    | answer => answer

def setBetween (m : Memo) (after before : String) (inclusive : Value)
    (answer : Answer (List LunarDate)) : Except Error Memo :=
  (spanKey after before inclusive).map fun key =>
    { m with between := record m.between key answer }

end Memo

end HijriRecurrence
