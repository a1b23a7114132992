/-!
# How a computation ends

A draw, and a program made of draws, ends in one of three ways: with a value,
with a failure that its caller can handle, or with a panic that unwinds
through every caller up to the one that contains it. A panic carries a payload
that is a text or is something that cannot be shown.
-/

namespace Resampler

/-- **The end of a computation.** -/
inductive Outcome (ε α : Type) where
  /-- It answered. -/
  | value (answer : α)
  /-- It failed, and its caller may go on. -/
  | failure (error : ε)
  /-- It panicked; `none` is a payload that is no text. -/
  | panic (payload : Option String)
deriving DecidableEq

namespace Outcome

variable {ε ε' α β : Type}

/-- Apply a function to the answer, if there is one. -/
def map (f : α → β) : Outcome ε α → Outcome ε β
  | .value a => .value (f a)
  | .failure e => .failure e
  | .panic p => .panic p

/-- Rephrase the failure, if there is one. -/
def mapFailure (f : ε → ε') : Outcome ε α → Outcome ε' α
  | .value a => .value a
  | .failure e => .failure (f e)
  | .panic p => .panic p

/-- Go on with the answer, if there is one. -/
def bind (o : Outcome ε α) (k : α → Outcome ε β) : Outcome ε β :=
  match o with
  | .value a => k a
  | .failure e => .failure e
  | .panic p => .panic p

/-- Whether it answered. -/
def isValue : Outcome ε α → Bool
  | .value _ => true
  | _ => false

/-- The outcome of a computation that cannot panic. -/
def ofExcept : Except ε α → Outcome ε α
  | .ok a => .value a
  | .error e => .failure e

theorem isValue_iff {o : Outcome ε α} :
    o.isValue = true ↔ ∃ a, o = .value a := by
  cases o <;> simp [isValue]

end Outcome

end Resampler
