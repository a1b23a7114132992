import Resampler.Schedule.Basic
import Resampler.Sampler.Unit

/-!
# Sampling runs

A run starts a unit of work for every site that the schedule finds, takes the
units back in the order of their start, and after each of them starts what has
become feasible. The draws that a unit brings back go into the shared trace,
sites seen for the first time into the schedule.

A unit that fails, or a local posterior that does, fails the run: the other
units are cancelled, no further one is started, and those in flight are still
taken back. A unit that was cancelled is dropped without a step, and so is
every unit once the sampler itself has been cancelled.
-/

namespace Resampler

/-- **A sampling run in progress.** -/
structure Run where
  /-- The schedule. -/
  schedule : Schedule
  /-- The shared trace. -/
  trace : Trace
  /-- The key that the keys of the units are split from. -/
  root : RandomKey
  /-- The units in flight, in the order of their start. -/
  queue : List WorkUnit
  /-- The error that failed the run. -/
  failure : Option Error
  /-- Whether the cancellation of the sampler has been seen. -/
  stopped : Bool
  /-- How many executions of the model there have been. -/
  executions : Nat
  /-- The state that interpreters share. -/
  shared : Shared

namespace Run

/-- Whether units may still be started. -/
def isOpen (r : Run) : Bool := r.failure.isNone && !r.stopped

/-- Fail the run, and cancel what is in flight. -/
def abort (r : Run) (e : Error) : Run :=
  { r with
    failure := some e
    shared := r.queue.foldl (fun s u => s.cancel u.token) r.shared
    schedule := r.schedule.drain }

/-- The values of all sites but one. -/
def others (r : Run) (site : String) : OrderedMap String Json :=
  r.trace.assignment.filterKeys fun name => !decide (name = site)

/-- Start a unit for a site, given the distribution to resample it from. -/
def start (r : Run) (token : Token) (site : String) (d : Distribution) : Run :=
  let (child, shared) := r.shared.newChild token
  { r with
    schedule := r.schedule.begin site
    root := r.root.incremented
    queue := r.queue ++ [⟨site, d, r.others site, r.root.deeper, child⟩]
    shared := shared }

/-- The schedule with a draw that a unit brought back; an observation is not
to be resampled. -/
def join (s : Schedule) (entry : String × TraceNode) : Schedule :=
  if entry.2.observed then s else s.addSite entry.1

/-- Put a draw that a unit brought back into the trace. -/
def mergeNode (r : Run) (entry : String × TraceNode) : Run :=
  { r with
    schedule := join r.schedule entry
    trace := r.trace.insert entry.1 entry.2 }

/-- **Take a unit back**, given what it came to. -/
def settle (r : Run) (site : String) : Except Error Trace → Run
  | .ok nodes =>
    let r := nodes.entries.foldl mergeNode r
    { r with schedule := r.schedule.finish site }
  | .error e =>
    let r := { r with schedule := r.schedule.abandon site }
    if !e.isCancelled && r.isOpen then r.abort (.siteFailed site e) else r

end Run

namespace Job

variable {σ : Type}

/-- See whether the sampler has been cancelled. -/
def watch (job : Job σ) (r : Run) : Run :=
  if r.isOpen && r.shared.isCancelled job.token then
    { r with stopped := true, schedule := r.schedule.drain }
  else r

/-- Start units as long as the schedule finds a site, at most `n` of them. -/
def startUpTo (job : Job σ) : Nat → Run → Run
  | 0, r => r
  | n + 1, r =>
    match r.schedule.findWork with
    | none => r
    | some site =>
      match job.posterior site r.trace with
      | .error e => r.abort (.siteFailed site e)
      | .ok d => job.startUpTo n (r.start job.token site d)

/-- **Start what is to be started now.** -/
def startAll (job : Job σ) (r : Run) : Run :=
  if r.isOpen then job.startUpTo r.schedule.pending r else r

/-- Execute a unit and take it back. -/
def receive (job : Job σ) (u : WorkUnit) (r : Run) : Run :=
  let (result, shared) := u.resample job r.executions r.shared
  { r with executions := r.executions + 1, shared := shared }.settle u.site result

/-- **Start and take back until nothing is in flight.** Every unit takes a step
of the budget, so `n` may be that budget and one more. -/
def drive (job : Job σ) : Nat → Run → Run
  | 0, r => r
  | n + 1, r =>
    let r := job.startAll (job.watch r)
    match r.queue with
    | [] => r
    | u :: rest => job.drive n (job.receive u { r with queue := rest })

end Job

namespace Run

/-- **How a run has ended.** -/
def result (r : Run) : Except Error Unit :=
  match r.failure with
  | some e => .error e
  | none => if r.stopped then .error .cancelled else .ok ()

end Run

end Resampler
