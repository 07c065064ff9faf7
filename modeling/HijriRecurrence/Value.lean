import HijriRecurrence.Civil
import HijriRecurrence.Lunar.Date
import HijriRecurrence.Number.Shortest
import HijriRecurrence.Rule.Terms
import HijriRecurrence.Text.Quoted
import HijriRecurrence.Weekday

/-!
# Values a caller may hand over

Dates, rule options and settings are given in many shapes: a date may be a lunar date, a civil date,
a sequence of numbers or a mapping with named parts.  `Value` holds any of them before it has been
checked, so that a message can show what was given (`shown`).  Checked data never uses this type.
-/

namespace HijriRecurrence

open Text

/-- Anything a caller may hand over. -/
inductive Value where
  | null
  | bool (b : Bool)
  | int (n : Int)
  | float (q : Rat)
  /-- The zero that is written with a minus sign. -/
  | minusZero
  | str (s : String)
  | list (items : List Value)
  | tuple (items : List Value)
  | dict (entries : List (String × Value))
  | civil (date : CivilDate)
  | civilTime (date : CivilDateTime)
  | lunar (date : LunarDate)
  | weekday (w : Weekday)
  | skip (s : Skip)
  /-- An object with a state of its own, known by its number: whether it may be a key, and the texts
  that show it in a message and elsewhere. -/
  | object (number : Nat) (isKey : Bool) (shown plain : String)
  /-- Something of another kind, known by the text that shows it. -/
  | other (text : String)
deriving Repr

namespace Value

mutual

/-- How a message shows a value. -/
def shown : Value → String
  | .null => "None"
  | .bool b => if b then "True" else "False"
  | .int n => showInt n
  | .float q => Shortest.decimal q
  | .minusZero => "-0.0"
  | .str s => quote s
  | .list items => "[" ++ ", ".intercalate (shownItems items) ++ "]"
  | .tuple [item] => "(" ++ shown item ++ ",)"
  | .tuple items => "(" ++ ", ".intercalate (shownItems items) ++ ")"
  | .dict entries => "\x7b" ++ ", ".intercalate (shownEntries entries) ++ "\x7d"
  | .civil g =>
    "datetime.date(" ++ showInt g.year ++ ", " ++ showInt g.month ++ ", " ++ showInt g.day ++ ")"
  | .civilTime g =>
    "datetime.datetime(" ++ showInt g.year ++ ", " ++ showInt g.month ++ ", " ++ showInt g.day ++
      ", " ++ showInt g.hour ++ ", " ++ showInt g.minute ++
      (if g.second = 0 then "" else ", " ++ showInt g.second) ++ ")"
  | .lunar d => d.shown
  | .weekday w => w.shown
  | .skip s => s.shown
  | .object _ _ text _ => text
  | .other text => text

def shownItems : List Value → List String
  | [] => []
  | item :: rest => shown item :: shownItems rest

def shownEntries : List (String × Value) → List String
  | [] => []
  | (key, value) :: rest => (quote key ++ ": " ++ shown value) :: shownEntries rest

end

/-- How a value is written into text that is not a message: a string stands without quotes. -/
def plain : Value → String
  | .str s => s
  | .skip s => "Skip." ++ s.ruleName
  | .civil g => g.text
  | .civilTime g =>
    g.text ++ " " ++ showPadded 2 g.hour ++ ":" ++ showPadded 2 g.minute ++ ":" ++
      showPadded 2 g.second
  | .lunar d => d.text
  | .object _ _ _ text => text
  | v => v.shown

/-- Whether a value counts as true: nothing, zero and whatever is empty do not. -/
def truthy : Value → Bool
  | .null => false
  | .bool b => b
  | .int n => n != 0
  | .float q => q != 0
  | .minusZero => false
  | .str s => !s.isEmpty
  | .list items => !items.isEmpty
  | .tuple items => !items.isEmpty
  | .dict entries => !entries.isEmpty
  | _ => true

/-! ### Equality -/

/-- What tells values apart: the leaves of a value, and the opening of each sequence or mapping in
it with its size. -/
inductive Mark where
  | null
  | number (q : Rat)
  | word (text : String)
  | list (size : Nat)
  | tuple (size : Nat)
  | dict (size : Nat)
  | key (name : String)
  | civil (date : CivilDate)
  | civilTime (date : CivilDateTime)
  | lunar (day : LunarDay)
  | weekday (w : Weekday)
  | object (number : Nat)
  | other (text : String)
deriving DecidableEq, Repr

mutual

/-- The marks of a value in order.  Numbers are told apart by their amount alone, truth values being
0 and 1, lunar dates by their day alone, and a policy is the word that names it. -/
def marks : Value → List Mark
  | .null => [.null]
  | .bool b => [.number (if b then 1 else 0)]
  | .int n => [.number n]
  | .float q => [.number q]
  | .minusZero => [.number 0]
  | .str s => [.word s]
  | .skip s => [.word s.name]
  | .list items => .list items.length :: itemMarks items
  | .tuple items => .tuple items.length :: itemMarks items
  | .dict entries =>
    .dict entries.length ::
      ((entryMarks entries).mergeSort fun a b => decide (a.1 ≤ b.1)).flatMap fun entry =>
        .key entry.1 :: entry.2
  | .civil g => [.civil g]
  | .civilTime g => [.civilTime g]
  | .lunar d => [.lunar d.toLunarDay]
  | .weekday w => [.weekday w]
  | .object number _ _ _ => [.object number]
  | .other text => [.other text]

def itemMarks : List Value → List Mark
  | [] => []
  | item :: rest => marks item ++ itemMarks rest

def entryMarks : List (String × Value) → List (String × List Mark)
  | [] => []
  | (key, value) :: rest => (key, marks value) :: entryMarks rest

end

def same (a b : Value) : Bool := decide (a.marks = b.marks)

@[simp] theorem same_refl (a : Value) : a.same a = true := by simp [same]

theorem same_comm (a b : Value) : a.same b = b.same a := by simp [same, eq_comm]

theorem same_trans {a b c : Value} (h : a.same b = true) (k : b.same c = true) :
    a.same c = true := by
  simp only [same, decide_eq_true_eq] at *
  rw [h, k]

mutual

/-- Whether a value may be a key: sequences that can change and mappings may not. -/
def isKey : Value → Bool
  | .list _ | .dict _ => false
  | .tuple items => areKeys items
  | .object _ allowed _ _ => allowed
  | _ => true

def areKeys : List Value → Bool
  | [] => true
  | item :: rest => isKey item && areKeys rest

end

/-! ### Reading -/

def isNull : Value → Bool
  | .null => true
  | _ => false

def int? : Value → Option Int
  | .int n => some n
  | _ => none

/-- The number of a value that counts as an integer, a truth value being 0 or 1. -/
def countable? : Value → Option Int
  | .int n => some n
  | .bool b => some (if b then 1 else 0)
  | _ => none

def amount? : Value → Option Rat
  | .bool b => some (if b then 1 else 0)
  | .int n => some n
  | .float q => some q
  | .minusZero => some 0
  | _ => none

def word? : Value → Option String
  | .str s => some s
  | .skip s => some s.name
  | _ => none

def lunar? : Value → Option LunarDate
  | .lunar d => some d
  | _ => none

/-- The items that a value of a list-valued option stands for: none for nothing, the items of a
sequence, the keys of a mapping, and otherwise the value itself. -/
def items : Value → List Value
  | .null => []
  | .list items => items
  | .tuple items => items
  | .dict entries => entries.map fun entry => .str entry.1
  | v => [v]

/-- The items that a value goes through: those of a sequence, the keys of a mapping, the characters
of a word. -/
def parts? : Value → Option (List Value)
  | .list items => some items
  | .tuple items => some items
  | .dict entries => some (entries.map fun entry => .str entry.1)
  | v => v.word?.map fun text => text.toList.map fun c => .str (String.singleton c)

/-- A list of integers as a value; nothing when it is empty. -/
def ofInts (ns : List Int) : Value :=
  if ns.isEmpty then .null else .list (ns.map .int)

end Value

end HijriRecurrence
