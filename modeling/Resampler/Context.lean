import Resampler.Chain.Draw

/-!
# What a program draws through

A program is handed a context: the chain of interpreters that answers its
draws, and the token by which it can be cancelled. Once the token is
cancelled, draws fail before they reach the chain.

An instance can be installed on top of the chain for the length of a scope. It
is in at most one open scope at a time, and not in one whose chain already has
it.
-/

namespace Resampler

/-- **The chain and the token that a program is handed.** -/
structure Context where
  /-- The chain that answers draws. -/
  chain : Chain
  /-- The token that stops them. -/
  token : Token

namespace Context

/-- **Answer a draw**, unless the token is cancelled. -/
def draw (c : Context) (site : Site) (s : Shared) : Reply × Shared :=
  if s.isCancelled c.token then (.failure .cancelled, s)
  else c.chain.draw site none s

/-- Whether an instance may be installed: it is neither linked in the chain nor
in an open scope. -/
def admits (c : Context) (s : Shared) (layer : Layer) : Bool :=
  !c.chain.contains layer.id && !decide (layer.id ∈ s.installed)

/-- The context inside the scope of an instance. -/
def inside (c : Context) (layer : Layer) : Context :=
  { c with chain := c.chain.push layer }

end Context

namespace Shared

/-- A chain of the layers that most programs want: a standard interpreter, a
cache over it, and a thread of keys from the root on top. -/
def newChain (s : Shared) : Chain × Shared :=
  let (bottom, s) := s.fresh
  let (middle, s) := s.fresh
  let (top, s) := s.fresh
  (.link top (.thread false)
    (.link middle (.memo middle) (.link bottom (.standard false) .empty)), s)

end Shared

end Resampler
