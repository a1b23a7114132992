import Resampler.Sampler.Run

/-!
# Samplers

A sampler executes a model once, conditioned on the observations, to find its
latent sites; that is the prior pass. Then it resamples the sites one at a
time for a given number of steps, and answers with the value of every latent
site. It answers with all of them or with an error.

The trace and the counts of the last call can be looked at afterwards, also
after an error. A call that was cancelled leaves a new token behind, so that
the next one can run.
-/

namespace Resampler

/-- **The settings of a sampler.** -/
structure Settings where
  /-- Which sites must not be resampled together. -/
  dependencies : Dependencies
  /-- The number of the key that all keys are split from. -/
  seed : Nat
  /-- How many units may run at once. The answers do not depend on it. -/
  workers : Nat

namespace Settings

/-- The settings of a sampler that is told nothing else. -/
def standard : Settings := ⟨.complete, 0, 4⟩

end Settings

/-- **What the last call of a sampler came to.** -/
inductive Phase where
  /-- There was none. -/
  | uninitialized
  /-- It answered. -/
  | completed
  /-- It was cancelled. -/
  | cancelled
  /-- It failed. -/
  | failed
deriving DecidableEq

/-- **A sampler.** -/
structure Sampler (σ : Type) where
  /-- The model. -/
  model : Model σ
  /-- The values of the observed sites. -/
  observed : OrderedMap String Json
  /-- The settings. -/
  settings : Settings
  /-- The local posterior. -/
  posterior : Posterior
  /-- The chain below the layers of the sampler. -/
  base : Chain
  /-- The token that cancels the running or the next call. -/
  token : Token
  /-- The trace of the last call. -/
  trace : Trace
  /-- The completed steps of the latent sites in the last call. -/
  counts : OrderedMap String Nat
  /-- What the last call came to. -/
  phase : Phase
  /-- How many executions of the model there have been. -/
  executions : Nat

namespace Sampler

variable {σ : Type}

/-- A sampler that has not been called. -/
def create (model : Model σ) (observed : List (String × Json))
    (settings : Settings) (posterior : Posterior) (base : Chain)
    (token : Token) : Sampler σ :=
  { model := model, observed := .ofList observed, settings := settings
    posterior := posterior, base := base, token := token, trace := .empty
    counts := .empty, phase := .uninitialized, executions := 0 }

/-- What the executions of one call have in common. -/
def job (g : Sampler σ) : Job σ := ⟨g.model, g.base, g.posterior, g.token⟩

/-- The key from which the keys of a call are split. -/
def rootKey (g : Sampler σ) : RandomKey := .ofSeed g.settings.seed

/-! ## The prior pass -/

/-- The chain of the prior pass; `n` is its first number. -/
def priorChain (g : Sampler σ) (n : Nat) : Chain :=
  .link (n + 2) .recorder
    (.link (n + 1) (.condition g.observed) (.link n (.thread false) g.base))

/-- What the program draws through in the prior pass; `n` is its first
number. -/
def priorContext (g : Sampler σ) (n : Nat) : Context :=
  ⟨g.priorChain n, g.token.child (n + 3)⟩

/-- The program of the prior pass; `n` is its first number. -/
def priorProgram (g : Sampler σ) (n : Nat) : Program σ :=
  g.model ⟨g.executions, some g.token⟩ (g.priorContext n)

/-- The state in which the prior pass starts: the thread holds its key, and
the recorder has recorded nothing. -/
def priorStart (g : Sampler σ) (s : Shared) : Shared :=
  ({ s with next := s.next + 4 }.hold s.next g.rootKey.deeper).setTrace
    (s.next + 2) .empty

/-- **The prior pass**: how the program ended, the trace, and the state. -/
def priorPass (g : Sampler σ) (s : Shared) :
    Outcome Error Unit × Trace × Shared :=
  let n := s.next
  let ((outcome, _), s) := (g.priorProgram n).run (g.priorStart s)
  (outcome, s.trace (n + 2), (s.forget n).forget (n + 2))

/-- The observed site that a trace does not have. -/
def unvisited (g : Sampler σ) (t : Trace) : Option String :=
  g.observed.keys.find? fun name => !t.contains name

/-- The latent sites of a trace: those that were drawn and are not observed. -/
def latentSites (g : Sampler σ) (t : Trace) : List String :=
  (t.entries.filter fun e => !e.2.observed && !g.observed.contains e.1).map
    Prod.fst

/-! ## A call -/

/-- The run that follows a prior pass. -/
def firstRun (g : Sampler σ) (steps : Nat) (t : Trace) (s : Shared) : Run :=
  { schedule := .create (g.latentSites t) g.settings.dependencies.graph steps
    trace := t
    root := g.rootKey.incremented
    queue := [], failure := none, stopped := false
    executions := g.executions + 1, shared := s }

/-- The observed site that does not have its value in a trace. -/
def overwritten (g : Sampler σ) (t : Trace) : Option String :=
  (g.observed.entries.find? fun e =>
    match t.get? e.1 with
    | some node => !node.value.same e.2
    | none => true).map Prod.fst

/-- The values of sites in a trace. -/
def valuesOf (t : Trace) (sites : List String) : List (String × Json) :=
  sites.filterMap fun site => (t.get? site).map fun node => (site, node.value)

/-- What a run answers when it has ended. -/
def answer (g : Sampler σ) (r : Run) : Except Error (List (String × Json)) :=
  match r.result with
  | .error e => .error e
  | .ok () =>
    match g.overwritten r.trace with
    | some site => .error (.observationOverwritten site)
    | none => .ok (valuesOf r.trace r.schedule.latent)

/-- The sampler after a call that came to a result. -/
def conclude (g : Sampler σ) (s : Shared) :
    Except Error (List (String × Json)) → Sampler σ × Shared
  | .ok _ => ({ g with phase := .completed }, s)
  | .error e =>
    if e.isCancelled then
      let (token, s) := s.newToken
      ({ g with phase := .cancelled, token := token }, s)
    else ({ g with phase := .failed }, s)

/-- The sampler after a result, together with that result. -/
def ended (g : Sampler σ) (s : Shared)
    (result : Except Error (List (String × Json))) :
    Outcome Error (List (String × Json)) × Sampler σ × Shared :=
  (.ofExcept result, g.conclude s result)

/-- Resample for some steps after a prior pass that succeeded. -/
def resample (g : Sampler σ) (steps : Nat) (t : Trace) (s : Shared) :
    Outcome Error (List (String × Json)) × Sampler σ × Shared :=
  let r := g.job.drive (steps + 1) (g.firstRun steps t s)
  { g with
    trace := r.trace, counts := r.schedule.counts
    executions := r.executions }.ended r.shared (g.answer r)

/-- **Sample.** The answer holds the latent sites in the order of their
discovery. Only a panic of the prior pass goes through to the caller. -/
def sample (g : Sampler σ) (steps : Nat) (s : Shared) :
    Outcome Error (List (String × Json)) × Sampler σ × Shared :=
  let (outcome, t, s) := g.priorPass s
  let counted := { g with executions := g.executions + 1 }
  match outcome with
  | .panic payload => (.panic payload, counted, s)
  | .failure e => counted.ended s (.error e)
  | .value () =>
    match g.unvisited t with
    | some site => counted.ended s (.error (.unobservedSite site))
    | none => g.resample steps t s

end Sampler

end Resampler
