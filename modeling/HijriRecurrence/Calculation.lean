import HijriRecurrence.Quantity

/-!
# Calculations over a calendar

Working with dates means asking a calendar for month lengths, and each question may fail.  The
tabular calendar answers on the spot.  The observed one keeps a cache that its callers can reach, so
what it answers, and what it has been asked before, is a matter of its state.  A `Calculation` is
therefore a dialogue: it is over, it has failed, or it asks the observed calendar something and goes
on from the answer.

* `Calculation.run` lets a state answer, question by question, whether or not the calculation
  succeeds in the end;
* `Calculation.outcome` is what comes of fixed answers, and `run_of_faithful` says that a state that
  gives those answers leads to that outcome;
* `outcome_bind` and `outcome_bind_eq_ok` say how outcomes compose, and the monad is lawful.

A calculation in the tabular calendar asks nothing: its outcome is the same for all answers.
-/

namespace HijriRecurrence

/-- Something asked of the observed calendar. -/
inductive Inquiry where
  /-- The calendar itself is fetched. -/
  | calendar
  /-- The length of a month is looked up. -/
  | month (year month : Int)
deriving DecidableEq, Repr

@[reducible] def Inquiry.Answer : Inquiry → Type
  | .calendar => Unit
  | .month .. => Except Error Quantity

/-- Answers to all inquiries, the same whenever one is made. -/
abbrev Answers := (inquiry : Inquiry) → inquiry.Answer

/-- A calculation that may ask the observed calendar and may fail. -/
inductive Calculation (α : Type) where
  /-- The calculation has its result. -/
  | done (result : α)
  /-- The calculation has failed. -/
  | failed (error : Error)
  /-- The calculation asks something and goes on from the answer. -/
  | ask (inquiry : Inquiry) (next : inquiry.Answer → Calculation α)

namespace Calculation

variable {α β γ σ : Type}

/-- Goes on with the result of a calculation; a failure ends it. -/
protected def bind (f : α → Calculation β) : Calculation α → Calculation β
  | done a => f a
  | failed e => failed e
  | ask inquiry next => ask inquiry fun answer => (next answer).bind f

protected def recover (handle : Error → Calculation α) : Calculation α → Calculation α
  | done a => done a
  | failed e => handle e
  | ask inquiry next => ask inquiry fun answer => (next answer).recover handle

instance : Monad Calculation where
  pure := done
  bind c f := c.bind f

instance : MonadExceptOf Error Calculation where
  throw := failed
  tryCatch c handle := c.recover handle

def ofExcept : Except Error α → Calculation α
  | .ok a => done a
  | .error e => failed e

instance : MonadLift (Except Error) Calculation := ⟨ofExcept⟩

/-- The outcome of a calculation as its result, so that a failure does not end what follows. -/
def attempt (c : Calculation α) : Calculation (Except Error α) :=
  tryCatch (Except.ok <$> c) fun e => pure (.error e)

/-- Makes a calculation with a state that answers and may change with every inquiry. -/
def run (answer : σ → (inquiry : Inquiry) → inquiry.Answer × σ) :
    Calculation α → σ → Except Error α × σ
  | done a, s => (.ok a, s)
  | failed e, s => (.error e, s)
  | ask inquiry next, s =>
    match answer s inquiry with
    | (given, s) => (next given).run answer s

/-- What comes of a calculation when inquiries have fixed answers. -/
def outcome (answers : Answers) : Calculation α → Except Error α
  | done a => .ok a
  | failed e => .error e
  | ask inquiry next => (next (answers inquiry)).outcome answers

/-! ### Laws -/

@[simp] theorem outcome_pure (answers : Answers) (a : α) :
    (pure a : Calculation α).outcome answers = .ok a := rfl

@[simp] theorem outcome_throw (answers : Answers) (e : Error) :
    (throw e : Calculation α).outcome answers = .error e := rfl

@[simp] theorem outcome_ofExcept (answers : Answers) (x : Except Error α) :
    (ofExcept x).outcome answers = x := by
  cases x <;> rfl

@[simp] theorem outcome_ask (answers : Answers) (inquiry : Inquiry)
    (next : inquiry.Answer → Calculation α) :
    (ask inquiry next).outcome answers = (next (answers inquiry)).outcome answers := rfl

/-- The outcome of a sequence is the sequence of the outcomes. -/
theorem outcome_bind (answers : Answers) (c : Calculation α) (f : α → Calculation β) :
    (c >>= f).outcome answers = c.outcome answers >>= fun a => (f a).outcome answers := by
  show (c.bind f).outcome answers = _
  induction c with
  | done a => rfl
  | failed e => rfl
  | ask inquiry next ih => exact ih (answers inquiry)

/-- A sequence succeeds exactly when each calculation succeeds in turn. -/
theorem outcome_bind_eq_ok {answers : Answers} {c : Calculation α} {f : α → Calculation β} {b : β} :
    (c >>= f).outcome answers = .ok b ↔
      ∃ a, c.outcome answers = .ok a ∧ (f a).outcome answers = .ok b := by
  rw [outcome_bind]
  cases c.outcome answers <;> simp [bind, Except.bind]

/-- Recovery from a failure, seen from the outcomes. -/
theorem outcome_tryCatch (answers : Answers) (c : Calculation α) (handle : Error → Calculation α) :
    (tryCatch c handle).outcome answers =
      match c.outcome answers with
      | .ok a => .ok a
      | .error e => (handle e).outcome answers := by
  show (c.recover handle).outcome answers = _
  induction c with
  | done a => rfl
  | failed e => rfl
  | ask inquiry next ih => exact ih (answers inquiry)

/-- A state that gives the fixed answers, and goes on to give them, leads to their outcome. -/
theorem run_of_faithful {answer : σ → (inquiry : Inquiry) → inquiry.Answer × σ} {answers : Answers}
    {Faithful : σ → Prop}
    (h : ∀ s inquiry, Faithful s →
      (answer s inquiry).1 = answers inquiry ∧ Faithful (answer s inquiry).2)
    (c : Calculation α) {s : σ} (hs : Faithful s) :
    (c.run answer s).1 = c.outcome answers ∧ Faithful (c.run answer s).2 := by
  induction c generalizing s with
  | done a => exact ⟨rfl, hs⟩
  | failed e => exact ⟨rfl, hs⟩
  | ask inquiry next ih =>
    obtain ⟨hanswer, hnext⟩ := h s inquiry hs
    have := ih (answer s inquiry).1 hnext
    simp only [run, outcome]
    rw [← hanswer]
    exact this

protected theorem bind_pure (c : Calculation α) : (c >>= pure : Calculation α) = c := by
  show c.bind _ = c
  induction c with
  | done a => rfl
  | failed e => rfl
  | ask inquiry next ih => exact congrArg (ask inquiry) (funext ih)

protected theorem bind_assoc (c : Calculation α) (f : α → Calculation β)
    (g : β → Calculation γ) : c >>= f >>= g = c >>= fun a => f a >>= g := by
  show (c.bind f).bind g = c.bind fun a => (f a).bind g
  induction c with
  | done a => rfl
  | failed e => rfl
  | ask inquiry next ih => exact congrArg (ask inquiry) (funext ih)

instance : LawfulMonad Calculation :=
  LawfulMonad.mk' Calculation (fun c => Calculation.bind_pure c)
    (fun _ _ => rfl) (fun c f g => Calculation.bind_assoc c f g)

@[simp] theorem outcome_attempt (answers : Answers) (c : Calculation α) :
    c.attempt.outcome answers = .ok (c.outcome answers) := by
  rw [attempt, outcome_tryCatch, ← bind_pure_comp, outcome_bind]
  cases c.outcome answers <;> rfl

/-! ### Lists -/

/-- The results of a calculation along a list, those that are something. -/
def filterMap (f : α → Calculation (Option β)) : List α → Calculation (List β)
  | [] => pure []
  | a :: rest => do
    let image ← f a
    let images ← filterMap f rest
    return match image with
      | some b => b :: images
      | none => images

end Calculation

end HijriRecurrence
