/-!
# Cancellation tokens

A token is cancelled once it, or a token that it descends from, has been
cancelled. A token knows its own number and those of its ancestors; which
numbers have been cancelled is kept elsewhere and only grows.
-/

namespace Resampler

/-- **A cancellation token.** -/
structure Token where
  /-- The number of the token. -/
  id : Nat
  /-- The numbers of the tokens that it descends from, the nearest first. -/
  ancestors : List Nat
deriving DecidableEq, Inhabited

namespace Token

/-- The numbers of the token and of its ancestors. -/
def lineage (t : Token) : List Nat := t.id :: t.ancestors

/-- A token without ancestors. -/
def ofId (id : Nat) : Token := ⟨id, []⟩

/-- A descendant with a number of its own. -/
def child (t : Token) (id : Nat) : Token := ⟨id, t.lineage⟩

/-- **Whether a token is cancelled**, given the numbers of those that have
been. -/
def isCancelled (t : Token) (cancelled : List Nat) : Bool :=
  t.lineage.any fun id => decide (id ∈ cancelled)

theorem isCancelled_iff (t : Token) (cancelled : List Nat) :
    t.isCancelled cancelled = true ↔ ∃ id ∈ t.lineage, id ∈ cancelled := by
  simp [isCancelled]

end Token

end Resampler
