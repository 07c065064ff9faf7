import HijriRecurrence.Calculation

/-!
# Streams of occurrences

Occurrences are produced one at a time, and nothing past the last one asked for is worked out.  An
`Occurrences` value is what a walk has ahead of it: it is over, it fails, it has an occurrence and
then a further walk, or it asks the observed calendar something and goes on from the answer.

* `items` and `ending` are the view of a stream under fixed answers: its occurrences in order, and
  the failure that cuts it short, if any;
* `after` starts a walk with the result of a calculation;
* `take` looks at the first few occurrences and at nothing after them, `toList` at all of them, and
  `dropWhile` passes over some;
* `map` changes every occurrence, and `mapM` passes every occurrence through a calculation, which
  may fail.
-/

namespace HijriRecurrence

/-- What a walk along occurrences has ahead of it. -/
inductive Occurrences (α : Type) where
  /-- The walk is over. -/
  | done
  /-- The walk fails. -/
  | failed (error : Error)
  /-- The walk has an occurrence and goes on after it. -/
  | item (head : α) (rest : Unit → Occurrences α)
  /-- The walk asks something and goes on from the answer. -/
  | ask (inquiry : Inquiry) (next : inquiry.Answer → Occurrences α)

namespace Occurrences

variable {α β : Type}

/-! ### View -/

/-- The occurrences of a walk, up to its end or its failure. -/
def items (answers : Answers) : Occurrences α → List α
  | done => []
  | failed _ => []
  | item head rest => head :: (rest ()).items answers
  | ask inquiry next => (next (answers inquiry)).items answers

/-- The failure that a walk ends in, if it does. -/
def ending (answers : Answers) : Occurrences α → Option Error
  | done => none
  | failed e => some e
  | item _ rest => (rest ()).ending answers
  | ask inquiry next => (next (answers inquiry)).ending answers

/-! ### Making walks -/

def ofList : List α → Occurrences α
  | [] => done
  | head :: rest => item head fun _ => ofList rest

/-- The walk that starts with the result of a calculation and asks what the calculation asks. -/
def afterAsking (f : β → Occurrences α) : Calculation β → Occurrences α
  | .done b => f b
  | .failed e => failed e
  | .ask inquiry next => ask inquiry fun answer => afterAsking f (next answer)

/-- The walk that starts with the result of a calculation.  A calculation that is over leads
straight into the walk. -/
@[inline] def after (c : Calculation β) (f : β → Occurrences α) : Occurrences α :=
  match c with
  | .done b => f b
  | c => afterAsking f c

/-- Walks along calculated occurrences and then goes on as told. -/
def yieldAll (f : β → Calculation α) : List β → (Unit → Occurrences α) → Occurrences α
  | [], following => following ()
  | b :: rest, following => after (f b) fun head => item head fun _ => yieldAll f rest following

def map (f : α → β) : Occurrences α → Occurrences β
  | done => done
  | failed e => failed e
  | item head rest => item (f head) fun _ => (rest ()).map f
  | ask inquiry next => ask inquiry fun answer => (next answer).map f

/-- Passes every occurrence through a calculation; the walk fails where the calculation does. -/
def mapM (f : α → Calculation β) : Occurrences α → Occurrences β
  | done => done
  | failed e => failed e
  | item head rest => after (f head) fun image => item image fun _ => (rest ()).mapM f
  | ask inquiry next => ask inquiry fun answer => (next answer).mapM f

/-! ### Looking along walks -/

/-- How a look at the first occurrences of a walk came out. -/
inductive Halt where
  /-- As many occurrences came as were asked for. -/
  | more
  /-- The walk was over before. -/
  | over
  /-- The walk failed before. -/
  | failure (error : Error)

/-- The first occurrences of a walk after those found already, the last of them first, and how the
look at them came out. -/
def takeOnto (found : List α) : Nat → Occurrences α → Calculation (List α × Halt)
  | 0, _ => pure (found.reverse, .more)
  | _ + 1, done => pure (found.reverse, .over)
  | _ + 1, failed e => pure (found.reverse, .failure e)
  | 1, item head _ => pure ((head :: found).reverse, .more)
  | count + 2, item head rest => takeOnto (head :: found) (count + 1) (rest ())
  | count + 1, ask inquiry next =>
    .ask inquiry fun answer => takeOnto found (count + 1) (next answer)

/-- The first occurrences of a walk, and how the look at them came out. -/
def take (count : Nat) (walk : Occurrences α) : Calculation (List α × Halt) :=
  takeOnto [] count walk

/-- All occurrences of a walk after those found already, the last of them first. -/
def toListOnto (found : List α) : Occurrences α → Calculation (List α)
  | done => pure found.reverse
  | failed e => throw e
  | item head rest => toListOnto (head :: found) (rest ())
  | ask inquiry next => .ask inquiry fun answer => toListOnto found (next answer)

/-- All occurrences of a walk that does not fail. -/
def toList (walk : Occurrences α) : Calculation (List α) := toListOnto [] walk

/-- The walk from its first occurrence on that does not have some property. -/
def dropWhile (p : α → Bool) : Occurrences α → Calculation (Occurrences α)
  | done => pure done
  | failed e => throw e
  | item head rest => if p head then dropWhile p (rest ()) else pure (item head rest)
  | ask inquiry next => .ask inquiry fun answer => dropWhile p (next answer)

/-! ### Laws -/

theorem after_eq (c : Calculation β) (f : β → Occurrences α) : after c f = afterAsking f c := by
  cases c <;> rfl

/-- The occurrences of a walk that starts with a result. -/
theorem items_after (answers : Answers) (c : Calculation β) (f : β → Occurrences α) :
    (after c f).items answers =
      match c.outcome answers with
      | .ok b => (f b).items answers
      | .error _ => [] := by
  rw [after_eq]
  induction c with
  | done b => rfl
  | failed e => rfl
  | ask inquiry next ih => exact ih (answers inquiry)

/-- The failure of a walk that starts with a result. -/
theorem ending_after (answers : Answers) (c : Calculation β) (f : β → Occurrences α) :
    (after c f).ending answers =
      match c.outcome answers with
      | .ok b => (f b).ending answers
      | .error e => some e := by
  rw [after_eq]
  induction c with
  | done b => rfl
  | failed e => rfl
  | ask inquiry next ih => exact ih (answers inquiry)

@[simp] theorem items_map (answers : Answers) (f : α → β) (walk : Occurrences α) :
    (walk.map f).items answers = (walk.items answers).map f := by
  induction walk with
  | done => rfl
  | failed => rfl
  | item _ rest ih => simp [map, items, ih]
  | ask inquiry next ih => exact ih (answers inquiry)

@[simp] theorem ending_map (answers : Answers) (f : α → β) (walk : Occurrences α) :
    (walk.map f).ending answers = walk.ending answers := by
  induction walk with
  | done => rfl
  | failed => rfl
  | item _ rest ih => exact ih ()
  | ask inquiry next ih => exact ih (answers inquiry)

@[simp] theorem items_ofList (answers : Answers) (list : List α) :
    (ofList list).items answers = list := by
  induction list with
  | nil => rfl
  | cons head rest ih => simp [ofList, items, ih]

@[simp] theorem ending_ofList (answers : Answers) (list : List α) :
    (ofList list).ending answers = none := by
  induction list with
  | nil => rfl
  | cons head rest ih => simp [ofList, ending, ih]

end Occurrences

end HijriRecurrence
