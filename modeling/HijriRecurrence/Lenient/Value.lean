import HijriRecurrence.Rule.Candidates

/-!
# Ordinals, order and positions of values of any kind

A number that is no integer still has an ordinal, values of one kind still have an order, and any
sequence has items at positions.  On integers, and on the candidates of a rule, these are the
functions of the library itself.
-/

namespace HijriRecurrence

open Text

/-! ### Ordinals -/

/-- English suffix of a number of any kind; a fraction takes the common one. -/
def ordinalSuffixOf (n : Value) : Except Error String := do
  let q ← (Quantity.ofValue n).amount
  return if q.den = 1 then ordinalSuffix q.num else "th"

def ordinalOf (n : Value) : Except Error String := (ordinalSuffixOf n).map (n.plain ++ ·)

/-- An ordinal of any kind in words where there is a word for it, and in figures otherwise, in the
language that a value names. -/
def ordinalTextOf (n locale : Value) : Except Error String := do
  let locale ← Locale.ofKey locale
  if !n.isKey then throw .unhashable
  let word? := match n.amount? with
    | some q => if q.den = 1 then locale.ordinalWord? q.num else none
    | none => none
  match word?, locale with
  | some word, _ => return word
  | none, .english => ordinalOf n
  | none, .arabic => return n.plain

/-! ### Order -/

mutual

/-- Whether one value is at most another one of its kind: dates by their day, civil dates by their
time as well, texts by their characters, sequences by their first items that differ, and numbers by
their amount. -/
def Value.isAtMost : Value → Value → Except Error Bool
  | .lunar d, .lunar e => .ok (decide (d.toLunarDay ≤ e.toLunarDay))
  | .civil g, .civil h => .ok (!h.before g)
  | .civilTime g, .civilTime h =>
    .ok (g.before h.toCivilDate || (g.toCivilDate == h.toCivilDate &&
      decide (g.secondOfDay ≤ h.secondOfDay)))
  | .list items, .list others => Value.itemsAtMost items others
  | .tuple items, .tuple others => Value.itemsAtMost items others
  | a, b =>
    match a.word?, b.word? with
    | some s, some t => .ok (decide (s ≤ t))
    | _, _ => (Quantity.ofValue a).atMost (.ofValue b)

/-- Whether the items of one sequence are at most those of another: the first ones that differ
decide, and a sequence that ends first is less. -/
def Value.itemsAtMost : List Value → List Value → Except Error Bool
  | [], _ => .ok true
  | _ :: _, [] => .ok false
  | a :: rest, b :: others =>
    if a.same b then Value.itemsAtMost rest others else Value.isAtMost a b

end

def Value.isLess (a b : Value) : Except Error Bool := (b.isAtMost a).map (!·)

/-- Inserts a value behind all values in increasing order that are at most it. -/
def Value.insertBehind (v : Value) : List Value → Except Error (List Value)
  | [] => .ok [v]
  | w :: rest => do
    if ← v.isLess w then return v :: w :: rest
    let rest ← v.insertBehind rest
    return w :: rest

/-- Values in increasing order; equal ones stay in the order they had. -/
def Value.sorted (items : List Value) : Except Error (List Value) :=
  match items.mapM Value.lunar? with
  | some dates => .ok ((LunarDate.sortDates dates).map .lunar)
  | none => items.foldlM (fun sorted v => v.insertBehind sorted) []

/-- What tells a value apart as a key: a date is told apart by its numbers. -/
def Value.keyed : Value → Value
  | .lunar d => .tuple [.int d.year, .int d.month, .int d.day]
  | v => v

/-- Whether two values are told apart by the same. -/
def Value.sameKey (a b : Value) : Except Error Bool :=
  match a, b with
  | .lunar d, .lunar e => .ok (d.sameDay e)
  | _, _ => if a.isKey && b.isKey then .ok (a.keyed.same b.keyed) else .error .unhashable

/-! ### Positions -/

/-- Inserts a value into values in increasing order, unless an equal one is there. -/
def Value.insertInto (v : Value) : List Value → Except Error (List Value)
  | [] => .ok [v]
  | w :: rest => do
    if v.same w then return w :: rest
    if ← v.isAtMost w then return v :: w :: rest
    let rest ← v.insertInto rest
    return w :: rest

/-- The items at some positions of a sequence, counted from 1 at the front and from -1 at the back,
in increasing order, added to those picked before. -/
def pickItems (items picked : List Value) : List Value → Except Error (List Value)
  | [] => .ok picked
  | position :: rest => do
    let position := Quantity.ofValue position
    let fromEnd ← position.atMost (.whole 0)
    let index ← if fromEnd then position.plus (.whole items.length) else position.minus (.whole 1)
    let fromStart ← (Quantity.whole 0).atMost index
    if fromStart && !(← (Quantity.whole items.length).atMost index) then
      match items[(← index.count).toNat]? with
      | none => pickItems items picked rest
      | some v =>
        if !v.isKey then throw .unhashable
        pickItems items (← v.insertInto picked) rest
    else pickItems items picked rest

/-- The candidate that a triple of integers is. -/
def Candidate.ofValue? : Value → Option Candidate
  | .tuple [.int year, .int month, .int day] => some ⟨year, month, .whole day⟩
  | _ => none

def Candidate.value (c : Candidate) : Value := .tuple [.int c.year, .int c.month, c.day.value]

/-- The items at some positions of a sequence, both of any kind, in increasing order. -/
def pickPositionsOfGiven (items positions : Value) : Except Error (List Value) :=
  match items, items.parts?, positions.parts? with
  | .dict _, _, _ | _, none, _ | _, _, none => .error .notNumber
  | _, some items, some positions =>
    match items.mapM Candidate.ofValue?, positions.mapM Value.int? with
    | some candidates, some positions =>
      .ok ((pickPositions candidates positions).map Candidate.value)
    | _, _ => pickItems items [] positions

end HijriRecurrence
