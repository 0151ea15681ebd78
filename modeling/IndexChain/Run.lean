import IndexChain.Fault

/-!
# Steps on a state

A step reads and changes a state and either answers or fails. What it did to the state before it
failed stays done: this is how operations on files and streams behave, and what clean-up code is
about.
-/

namespace IndexChain

/-- A step on a state `σ` that answers an `α` or fails. -/
def Run (σ α : Type) : Type := σ → Except Fault α × σ

namespace Run

variable {σ α β : Type}

/-- The step that answers and does nothing. -/
def done (a : α) : Run σ α := fun s => (.ok a, s)

/-- The step that fails and does nothing. -/
def fail (fault : Fault) : Run σ α := fun s => (.error fault, s)

/-- One step after another; a failure of the first is the failure of both. -/
def andThen (x : Run σ α) (f : α → Run σ β) : Run σ β := fun s =>
  match x s with
  | (.ok a, s) => f a s
  | (.error fault, s) => (.error fault, s)

instance : Monad (Run σ) where
  pure := done
  bind := andThen

/-- The step of an outcome that is known. -/
def ofExcept : Except Fault α → Run σ α
  | .ok a => done a
  | .error fault => fail fault

/-- A step, and then another one whatever came of the first. A failure of the second takes the place
of any outcome of the first. -/
def ensure (x : Run σ α) (after : Run σ Unit) : Run σ α := fun s =>
  match x s with
  | (outcome, s) =>
    match after s with
    | (.ok (), s) => (outcome, s)
    | (.error fault, s) => (.error fault, s)

/-- A step whose failures of a class are answered by another step. -/
def recover (x : Run σ α) (caught : Fault → Bool) (answer : Fault → Run σ α) : Run σ α := fun s =>
  match x s with
  | (.ok a, s) => (.ok a, s)
  | (.error fault, s) => if caught fault then answer fault s else (.error fault, s)

/-- A change of the state. -/
def change (f : σ → σ) : Run σ Unit := fun s => (.ok (), f s)

/-- Asks for items and hands each to a consumer, with its number, until there are no more; answers
what the consumer made of them. That there are no more is said by the fault `exhausted`, wherever it
comes from; a failure of the consumer, whichever it is, ends the loop and is the loop's. No more
items are taken than `fuel` says. -/
def forEach (next : Run σ α) (consume : Nat → α → Run σ β) : Nat → Nat → List β → Run σ (List β)
  | 0, _, acc => done acc.reverse
  | fuel + 1, k, acc => fun s =>
    match next s with
    | (.error .exhausted, s) => (.ok acc.reverse, s)
    | (.error fault, s) => (.error fault, s)
    | (.ok item, s) =>
      match consume k item s with
      | (.error fault, s) => (.error fault, s)
      | (.ok b, s) => forEach next consume fuel (k + 1) (b :: acc) s

end Run

end IndexChain
