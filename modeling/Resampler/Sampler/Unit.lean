import Resampler.Sampler.Posterior

/-!
# Units of work

To resample a site, the program is executed once more with every other site of
the trace held fixed. The chain it draws through is, from the outside in: a
recorder; a condition that holds the fixed sites; a branch that sends the
resampled site down a chain of its own; a thread of keys for the sites that the
new value brings into existence; and the base that all of them share. On the
branch the distribution of the site is replaced by its local posterior, under a
key of its own.

What a unit brings back are the draws that were not held fixed.
-/

namespace Resampler

/-- **One site to resample.** -/
structure WorkUnit where
  /-- The site. -/
  site : String
  /-- The distribution it is resampled from. -/
  posterior : Distribution
  /-- The values of the sites that are held fixed. -/
  fixed : OrderedMap String Json
  /-- The key that all keys of the unit are split from. -/
  key : RandomKey
  /-- The token that cancels the unit. -/
  token : Token

/-- **What all executions of a model have in common**: the model, the chain at
the bottom, the local posterior, and the token of the sampler. -/
structure Job (σ : Type) where
  /-- The model. -/
  model : Model σ
  /-- The chain below the layers of the sampler. -/
  base : Chain
  /-- The local posterior. -/
  posterior : Posterior
  /-- The token of the sampler. -/
  token : Token

/-- The text of a panic, also of one without. -/
def panicText (payload : Option String) : String :=
  payload.getD "unknown panic payload"

namespace WorkUnit

/-- The key that the resampled site is threaded from. -/
def siteKey (u : WorkUnit) : RandomKey := u.key.deeper

/-- The key that the sites without a value are threaded from. -/
def programKey (u : WorkUnit) : RandomKey := u.key.incremented.deeper

/-- The chain of the resampled site; `n` is the first number of the unit. -/
def alternate (u : WorkUnit) (base : Chain) (n : Nat) : Chain :=
  .link (n + 1) (.thread false) (.link n (.substitute u.posterior) base)

/-- **The chain that the program draws through.** -/
def chain (u : WorkUnit) (base : Chain) (n : Nat) : Chain :=
  .link (n + 5) .recorder
    (.link (n + 4) (.condition u.fixed)
      (.branch (n + 3) (selectSite u.site) (u.alternate base n)
        (.link (n + 2) (.thread false) base)))

/-- The state in which the program starts: the threads hold their keys, and
the recorder has recorded nothing. -/
def prepare (u : WorkUnit) (s : Shared) : Shared :=
  (({ s with next := s.next + 6 }.hold (s.next + 1) u.siteKey).hold
    (s.next + 2) u.programKey).setTrace (s.next + 5) .empty

/-- Forget what only the unit used. -/
def clear (n : Nat) (s : Shared) : Shared :=
  ((s.forget (n + 1)).forget (n + 2)).forget (n + 5)

/-- The draws that were not held fixed. -/
def free (u : WorkUnit) (t : Trace) : Trace :=
  t.filterKeys fun name => !u.fixed.contains name

/-- What the program draws through; `n` is the first number of the unit. -/
def context (u : WorkUnit) (base : Chain) (n : Nat) : Context :=
  ⟨u.chain base n, u.token⟩

/-- The program that the unit executes; `n` is the first number of the unit. -/
def program {σ : Type} (u : WorkUnit) (job : Job σ) (index n : Nat) :
    Program σ :=
  job.model ⟨index, some job.token⟩ (u.context job.base n)

/-- **Resample the site.** A panic of the program is an error of the unit. -/
def resample {σ : Type} (u : WorkUnit) (job : Job σ) (index : Nat)
    (s : Shared) : Except Error Trace × Shared :=
  let n := s.next
  let ((outcome, _), s) := (u.program job index n).run (u.prepare s)
  let nodes := u.free (s.trace (n + 5))
  let s := clear n s
  match outcome with
  | .value () => (.ok nodes, s)
  | .failure e => (.error e, s)
  | .panic payload => (.error (.panicked (panicText payload)), s)

end WorkUnit

end Resampler
