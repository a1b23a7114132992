import Resampler.Proofs.Program.Transcript
import Resampler.Proofs.Sampler.Merge
import Resampler.Proofs.Schedule.Choice
import Resampler.Sampler.Basic

/-!
# The course of a call

A call executes the program in the prior pass, and then once for every unit
that it takes back. Between two units it starts what can be started. `Reaches`
lists the runs that a call goes through, each just after a unit has been taken
back, and `Executes` the units, each with the run in which it is executed.

A property of all of these is shown in two halves: starting units does not end
it (`Job.Lasts`), and neither does taking one back (`Job.IsInvariant`). That a
call comes to an end in a run that it has reached, up to units that it has
started since, is `exists_reaches_drive`.

Where every site depends on every other, at most one unit is in flight, and it
holds fixed what the trace says at the time it is executed. This is
`Run.Solo`.
-/

namespace Resampler

variable {σ : Type}

/-! ## Executions -/

namespace WorkUnit

/-- The execution of a unit: how the program ended, and the state it left. -/
def execution (u : WorkUnit) (job : Job σ) (index : Nat) (s : Shared) :
    Ending σ × Shared :=
  (u.program job index s.next).run (u.prepare s)

/-- **What the program of a unit asked for and was answered.** -/
def transcript (u : WorkUnit) (job : Job σ) (index : Nat) (s : Shared) :
    List (Site × Reply) :=
  (u.program job index s.next).transcript (u.prepare s)

variable {u : WorkUnit} {job : Job σ} {index : Nat} {s : Shared}

/-- The state in which a unit leaves the sampler. -/
theorem resample_snd :
    (u.resample job index s).2 = clear s.next (u.execution job index s).2 := by
  unfold resample execution
  dsimp only
  split <;> rfl

/-- **A unit that brings something back** has completed its program, and brings
what the recorder holds, but for the sites that were held fixed. -/
theorem resample_eq_ok {nodes : Trace} (h : (u.resample job index s).1 = .ok nodes) :
    (u.execution job index s).1.1 = .value ()
      ∧ nodes = u.free ((u.execution job index s).2.trace (s.next + 5)) := by
  unfold resample at h
  dsimp only at h
  split at h
  · next he =>
    cases h
    exact ⟨he, rfl⟩
  · cases h
  · cases h

/-- A unit fails as its program does, or because that panicked. -/
theorem resample_eq_error {e : Error} (h : (u.resample job index s).1 = .error e) :
    (u.execution job index s).1.1 = .failure e ∨ ∃ message, e = .panicked message := by
  unfold resample at h
  dsimp only at h
  split at h
  · cases h
  · next he =>
    cases h
    exact .inl he
  · cases h
    exact .inr ⟨_, rfl⟩

end WorkUnit

namespace Sampler

/-- The execution in the prior pass: how the program ended, and the state it
left. -/
def priorExecution (g : Sampler σ) (s : Shared) : Ending σ × Shared :=
  (g.priorProgram s.next).run (g.priorStart s)

/-- **What the program asked for in the prior pass and was answered.** -/
def priorTranscript (g : Sampler σ) (s : Shared) : List (Site × Reply) :=
  (g.priorProgram s.next).transcript (g.priorStart s)

end Sampler

/-! ## Starting and taking back -/

namespace Job

variable {job : Job σ}

/-- **What receiving a unit does to the run** from which it has just been
taken. -/
structure Received (job : Job σ) (u : WorkUnit) (r r' : Run) : Prop where
  trace : r'.trace = r.traceAfter (u.resample job r.executions r.shared).1
  queue : r'.queue = r.queue
  root : r'.root = r.root
  graph : r'.schedule.graph = r.schedule.graph
  inFlight : r'.schedule.inFlight = r.schedule.inFlight.erase u.site
  latent : ∀ y ∈ r'.schedule.latent, y ∈ r.schedule.latent
    ∨ ∃ nodes, (u.resample job r.executions r.shared).1 = .ok nodes
      ∧ nodes.contains y = true
  asked : r'.shared.asked = (u.execution job r.executions r.shared).2.asked
  used : r'.shared.used = (u.execution job r.executions r.shared).2.used
  failure : ∀ e, r'.failure = some e → r.failure = some e
    ∨ ∃ e', (u.resample job r.executions r.shared).1 = .error e'
      ∧ e = .siteFailed u.site e'

/-- Of the state only the cancelled tokens have changed since the execution, and what only
the unit used has been forgotten. -/
theorem shared_receive (job : Job σ) (u : WorkUnit) (r : Run) :
    ∃ cancelled, (job.receive u r).shared
      = { WorkUnit.clear r.shared.next (u.execution job r.executions r.shared).2 with
        cancelled := cancelled } := by
  have taken := Run.taken_settle { r with
    executions := r.executions + 1
    shared := (u.resample job r.executions r.shared).2 } u.site
    (u.resample job r.executions r.shared).1
  rw [← WorkUnit.resample_snd]
  exact taken.shared

theorem received_receive (job : Job σ) (u : WorkUnit) (r : Run) :
    job.Received u r (job.receive u r) := by
  have taken := Run.taken_settle { r with
    executions := r.executions + 1
    shared := (u.resample job r.executions r.shared).2 } u.site
    (u.resample job r.executions r.shared).1
  obtain ⟨c, hc⟩ := job.shared_receive u r
  refine ⟨taken.trace, taken.queue, taken.root, taken.graph, taken.inFlight,
    taken.latent, ?_, ?_, taken.failure⟩
  · rw [hc]
    rfl
  · rw [hc]
    rfl

/-- **A run in which everything has been started** that could be. -/
def launched (job : Job σ) (r : Run) : Run := job.startAll (job.watch r)

/-- **A property that starting units does not end.** -/
structure Lasts (job : Job σ) (P : Run → Prop) : Prop where
  stops : ∀ {r}, P r → P { r with stopped := true, schedule := r.schedule.drain }
  starts : ∀ {r site d}, P r → r.schedule.findWork = some site →
    job.posterior site r.trace = .ok d → P (r.start job.token site d)
  aborts : ∀ {r site e}, P r → r.schedule.findWork = some site →
    job.posterior site r.trace = .error e → P (r.abort (.siteFailed site e))

/-- **A property that a run keeps.** -/
structure IsInvariant (job : Job σ) (P : Run → Prop) : Prop
    extends Lasts job P where
  takes : ∀ {r u rest}, P r → r.queue = u :: rest →
    P (job.receive u { r with queue := rest })

theorem Lasts.startUpTo {P : Run → Prop} (h : job.Lasts P) (n : Nat) {r : Run}
    (hr : P r) : P (job.startUpTo n r) := by
  induction n generalizing r with
  | zero => exact hr
  | succ n ih =>
    unfold Job.startUpTo
    split
    · exact hr
    · next site hw =>
      split
      · next e he => exact h.aborts hr hw he
      · next d hd => exact ih (h.starts hr hw hd)

theorem Lasts.launched {P : Run → Prop} (h : job.Lasts P) {r : Run} (hr : P r) :
    P (job.launched r) := by
  have hw : P (job.watch r) := by
    unfold Job.watch
    split
    · exact h.stops hr
    · exact hr
  unfold Job.launched Job.startAll
  split
  · exact h.startUpTo _ hw
  · exact hw

/-- Starting units leaves the trace alone. -/
@[simp] theorem trace_launched (job : Job σ) (r : Run) :
    (job.launched r).trace = r.trace := by
  have h : job.Lasts fun r' => r'.trace = r.trace := ⟨id, fun h _ _ => h, fun h _ _ => h⟩
  exact h.launched rfl

theorem drive_of_nil {r : Run} (h : (job.launched r).queue = []) (n : Nat) :
    job.drive (n + 1) r = job.launched r := by
  unfold drive
  dsimp only
  split
  · rfl
  · next u rest hq =>
    rw [launched, hq] at h
    cases h

theorem drive_of_cons {r : Run} {u : WorkUnit} {rest : List WorkUnit}
    (h : (job.launched r).queue = u :: rest) (n : Nat) :
    job.drive (n + 1) r
      = job.drive n (job.receive u { job.launched r with queue := rest }) := by
  unfold launched at h ⊢
  rw [drive]
  split
  · next hq =>
    rw [hq] at h
    cases h
  · next u' rest' hq =>
    rw [hq] at h
    cases h
    rfl

end Job

/-! ## The runs that a call reaches -/

namespace Sampler

variable {g : Sampler σ} {steps : Nat} {s : Shared}

/-- **A prior pass after which sampling begins**: the program completed, and
it visited every observed site. -/
structure Begins (g : Sampler σ) (s : Shared) (t : Trace) (s' : Shared) : Prop where
  passed : g.priorPass s = (.value (), t, s')
  visited : g.unvisited t = none

theorem Begins.outcome {t : Trace} {s' : Shared} (h : g.Begins s t s') :
    (g.priorExecution s).1.1 = .value () :=
  congrArg Prod.fst h.passed

theorem Begins.trace {t : Trace} {s' : Shared} (h : g.Begins s t s') :
    t = (g.priorExecution s).2.trace (s.next + 2) :=
  (congrArg (fun out => out.2.1) h.passed).symm

theorem Begins.shared {t : Trace} {s' : Shared} (h : g.Begins s t s') :
    s' = ((g.priorExecution s).2.forget s.next).forget (s.next + 2) :=
  (congrArg (fun out => out.2.2) h.passed).symm

/-- **The runs that a call goes through**, each just after a unit has been taken
back. -/
inductive Reaches (g : Sampler σ) (steps : Nat) (s : Shared) : Run → Prop where
  | first {t : Trace} {s' : Shared} (begins : g.Begins s t s') :
    Reaches g steps s (g.firstRun steps t s')
  | turn {r : Run} {u : WorkUnit} {rest : List WorkUnit}
    (before : Reaches g steps s r)
    (front : (g.job.launched r).queue = u :: rest) :
    Reaches g steps s (g.job.receive u { g.job.launched r with queue := rest })

/-- **The units that a call executes**, each in the run from which it has just
been taken. -/
inductive Executes (g : Sampler σ) (steps : Nat) (s : Shared) :
    WorkUnit → Run → Prop where
  | intro {r : Run} {u : WorkUnit} {rest : List WorkUnit}
    (before : Reaches g steps s r)
    (front : (g.job.launched r).queue = u :: rest) :
    Executes g steps s u { g.job.launched r with queue := rest }

/-- **The run after so many units**, as far as there are so many. -/
def stage (g : Sampler σ) (steps : Nat) (s : Shared) : Nat → Run
  | 0 => g.firstRun steps (g.priorPass s).2.1 (g.priorPass s).2.2
  | k + 1 =>
    match (g.job.launched (g.stage steps s k)).queue with
    | [] => g.stage steps s k
    | u :: rest =>
      g.job.receive u { g.job.launched (g.stage steps s k) with queue := rest }

/-- The stages of a call are the runs that it reaches. -/
theorem reaches_stage (hp : (g.priorPass s).1 = .value ())
    (hv : g.unvisited (g.priorPass s).2.1 = none) (k : Nat) :
    g.Reaches steps s (g.stage steps s k) := by
  induction k with
  | zero => exact .first ⟨Prod.ext hp rfl, hv⟩
  | succ k ih =>
    rw [stage]
    split
    · exact ih
    · next front => exact .turn ih front

/-- There are no others. -/
theorem Reaches.exists_stage {r : Run} (h : g.Reaches steps s r) :
    ∃ k, r = g.stage steps s k := by
  induction h with
  | first begins =>
    refine ⟨0, ?_⟩
    rw [stage, begins.passed]
  | turn before front ih =>
    obtain ⟨k, rfl⟩ := ih
    refine ⟨k + 1, ?_⟩
    rw [stage, front]

/-- After a stage at which nothing is in flight none comes. -/
theorem stage_of_nil {k : Nat} (h : (g.job.launched (g.stage steps s k)).queue = []) (j : Nat) :
    g.stage steps s (k + j) = g.stage steps s k := by
  induction j with
  | zero => rfl
  | succ j ih =>
    rw [← Nat.add_assoc, stage, ih, h]

/-- **All that is executed is executed at a stage**, before the one at which nothing is in
flight. -/
theorem Executes.exists_stage {u : WorkUnit} {r : Run} (h : g.Executes steps s u r) {n : Nat}
    (hn : (g.job.launched (g.stage steps s n)).queue = []) :
    ∃ k < n, ∃ rest, (g.job.launched (g.stage steps s k)).queue = u :: rest
      ∧ r = { g.job.launched (g.stage steps s k) with queue := rest } := by
  cases h with
  | @intro _ _ rest before front =>
    obtain ⟨k, rfl⟩ := before.exists_stage
    refine ⟨k, ?_, rest, front, rfl⟩
    by_contra hk
    obtain ⟨j, rfl⟩ := Nat.exists_eq_add_of_le (Nat.not_lt.mp hk)
    rw [stage_of_nil hn, hn] at front
    cases front

/-- The unit that is executed at a stage. -/
theorem executes_stage (hp : (g.priorPass s).1 = .value ())
    (hv : g.unvisited (g.priorPass s).2.1 = none) {k : Nat} {u : WorkUnit}
    (hu : (g.job.launched (g.stage steps s k)).queue.head? = some u) :
    g.Executes steps s u { g.job.launched (g.stage steps s k) with
      queue := (g.job.launched (g.stage steps s k)).queue.tail } := by
  obtain ⟨rest, hq⟩ := List.head?_eq_some_iff.mp hu
  rw [hq]
  exact .intro (reaches_stage hp hv k) hq

/-- What holds at first and is kept holds of every run that is reached. -/
theorem Reaches.keeps {P : Run → Prop} (hP : g.job.IsInvariant P)
    (hfirst : ∀ {t s'}, g.Begins s t s' → P (g.firstRun steps t s')) {r : Run}
    (h : g.Reaches steps s r) : P r := by
  induction h with
  | first begins => exact hfirst begins
  | turn before front ih => exact hP.takes (hP.launched ih) front

/-- **Driving a run** goes through the runs that are reached, and ends in one
of them, perhaps with units started in it. -/
theorem exists_reaches_drive (n : Nat) {r : Run} (h : g.Reaches steps s r) :
    ∃ r', g.Reaches steps s r'
      ∧ (g.job.drive n r = r' ∨ g.job.drive n r = g.job.launched r') := by
  -- Every unit that is taken back is one more turn; without one nothing goes on.
  induction n generalizing r with
  | zero => exact ⟨r, h, .inl rfl⟩
  | succ n ih =>
    cases hq : (g.job.launched r).queue with
    | nil => exact ⟨r, h, .inr (Job.drive_of_nil hq n)⟩
    | cons u rest =>
      rw [Job.drive_of_cons hq n]
      exact ih (.turn h hq)

/-! ## What a call comes to -/

/-- **The run in which a call ends**, if sampling begins. -/
def lastRun (g : Sampler σ) (steps : Nat) (t : Trace) (s : Shared) : Run :=
  g.job.drive (steps + 1) (g.firstRun steps t s)

/-- The last run is one that has been reached, perhaps with units started in
it. -/
theorem exists_reaches_lastRun {n : Nat} {t : Trace} {s' : Shared}
    (h : g.Begins s t s') :
    ∃ r, g.Reaches n s r
      ∧ (g.lastRun n t s' = r ∨ g.lastRun n t s' = g.job.launched r) :=
  exists_reaches_drive (n + 1) (.first h)

theorem lastRun_keeps {P : Run → Prop} (hP : g.job.IsInvariant P)
    (hfirst : ∀ {t s'}, g.Begins s t s' → P (g.firstRun steps t s')) {t : Trace}
    {s' : Shared} (h : g.Begins s t s') : P (g.lastRun steps t s') := by
  obtain ⟨r, hr, hd⟩ := exists_reaches_lastRun h
  have hPr := hr.keeps hP hfirst
  rcases hd with hd | hd
  · rw [hd]
    exact hPr
  · rw [hd]
    exact hP.launched hPr

/-- **Why a run fails**: because of a local posterior, or because of a unit. -/
inductive Blames (g : Sampler σ) (steps : Nat) (s : Shared) : Error → Prop where
  | posterior {site : String} {t : Trace} {e : Error}
    (failed : g.posterior site t = .error e) : Blames g steps s (.siteFailed site e)
  | unit {u : WorkUnit} {r : Run} {e : Error} (executed : g.Executes steps s u r)
    (failed : (u.resample g.job r.executions r.shared).1 = .error e) :
    Blames g steps s (.siteFailed u.site e)

/-- Starting units fails a run only because of a local posterior. -/
theorem lasts_blames (g : Sampler σ) (steps : Nat) (s : Shared) :
    g.job.Lasts fun r => ∀ e, r.failure = some e → g.Blames steps s e where
  stops h := h
  starts h _ _ := h
  aborts {r site e} _ _ he e' hf := by
    obtain ⟨c, hc⟩ := Run.abort_eq r (.siteFailed site e)
    rw [hc] at hf
    cases hf
    exact .posterior he

theorem Reaches.blames {r : Run} (h : g.Reaches steps s r) :
    ∀ e, r.failure = some e → g.Blames steps s e := by
  induction h with
  | first begins =>
    intro e he
    cases he
  | @turn r u rest before front ih =>
    intro e he
    rcases (Job.received_receive g.job u _).failure e he with he | ⟨e', hres, rfl⟩
    · exact (lasts_blames g steps s).launched ih e he
    · exact .unit (.intro before front) hres

theorem lastRun_blames {t : Trace} {s' : Shared} (h : g.Begins s t s') {e : Error}
    (he : (g.lastRun steps t s').failure = some e) : g.Blames steps s e := by
  obtain ⟨r, hr, hd⟩ := exists_reaches_lastRun (n := steps) h
  rcases hd with hd | hd
  · exact hr.blames e (hd ▸ he)
  · exact (lasts_blames g steps s).launched hr.blames e (hd ▸ he)

theorem sample_of_begins {t : Trace} {s' : Shared} (h : g.Begins s t s') :
    g.sample steps s = g.resample steps t s' := by
  unfold sample
  rw [h.passed]
  dsimp only
  rw [h.visited]

theorem conclude_trace (g : Sampler σ) (s : Shared)
    (result : Except Error (List (String × Json))) :
    (g.conclude s result).1.trace = g.trace := by
  unfold conclude
  split
  · rfl
  · split <;> rfl

theorem conclude_asked (g : Sampler σ) (s : Shared)
    (result : Except Error (List (String × Json))) :
    (g.conclude s result).2.asked = s.asked := by
  unfold conclude
  split
  · rfl
  · split <;> rfl

/-- The trace that a call leaves is that of a run that it reached. -/
theorem exists_reaches_sample {n : Nat} {t : Trace} {s' : Shared}
    (h : g.Begins s t s') :
    ∃ r, g.Reaches n s r ∧ (g.sample n s).2.1.trace = r.trace := by
  obtain ⟨r, hr, hd⟩ := exists_reaches_lastRun h
  refine ⟨r, hr, ?_⟩
  rw [sample_of_begins h]
  refine (conclude_trace _ _ _).trans ?_
  show (g.lastRun n t s').trace = r.trace
  rcases hd with hd | hd
  · rw [hd]
  · rw [hd, Job.trace_launched]

/-- **Where a call ends**: in its last run, or after the prior pass, with the
failure of that or for a site that it did not visit. -/
theorem sample_cases (g : Sampler σ) (steps : Nat) (s : Shared) :
    (∃ t s', g.Begins s t s' ∧ g.sample steps s = g.resample steps t s')
      ∨ (g.sample steps s).2.2.asked = (g.priorPass s).2.2.asked
        ∧ ∀ e, (g.sample steps s).1 = .failure e →
          (g.priorPass s).1 = .failure e ∨ ∃ site, e = .unobservedSite site := by
  rcases hp : g.priorPass s with ⟨outcome, t, s'⟩
  cases outcome with
  | panic payload =>
    refine .inr ⟨?_, fun e he => ?_⟩
    · simp only [sample, hp]
    · simp [sample, hp] at he
  | failure e =>
    refine .inr ⟨?_, fun e' he => .inl ?_⟩
    · simp only [sample, hp]
      exact conclude_asked _ _ _
    · simpa [sample, hp, ended, Outcome.ofExcept] using he
  | value a =>
    cases hv : g.unvisited t with
    | none => exact .inl ⟨t, s', ⟨hp, hv⟩, sample_of_begins ⟨hp, hv⟩⟩
    | some site =>
      refine .inr ⟨?_, fun e he => .inr ⟨site, ?_⟩⟩
      · simp only [sample, hp, hv]
        exact conclude_asked _ _ _
      · simp [sample, hp, hv, ended, Outcome.ofExcept] at he
        exact he.symm

theorem resample_asked (g : Sampler σ) (steps : Nat) (t : Trace) (s : Shared) :
    (g.resample steps t s).2.2.asked = (g.lastRun steps t s).shared.asked :=
  conclude_asked _ _ _

/-- What a call can fail with after the prior pass: the failure of its last run,
a cancellation, or an observed site without its value. -/
theorem resample_failure {t : Trace} {e : Error}
    (h : (g.resample steps t s).1 = .failure e) :
    (g.lastRun steps t s).failure = some e ∨ e = .cancelled
      ∨ ∃ site, g.overwritten (g.lastRun steps t s).trace = some site
        ∧ e = .observationOverwritten site := by
  have he : g.answer (g.lastRun steps t s) = .error e := by
    change Outcome.ofExcept (g.answer (g.lastRun steps t s)) = .failure e at h
    cases ha : g.answer (g.lastRun steps t s) with
    | ok a =>
      rw [ha] at h
      cases h
    | error e' =>
      rw [ha] at h
      cases h
      rfl
  unfold answer Run.result at he
  cases hf : (g.lastRun steps t s).failure with
  | some e' =>
    rw [hf] at he
    cases he
    exact .inl rfl
  | none =>
    rw [hf] at he
    dsimp only at he
    split at he
    · next heq =>
      split at heq
      · cases heq
        cases he
        exact .inr (.inl rfl)
      · cases heq
    · split at he
      · next site ho =>
        cases he
        exact .inr (.inr ⟨site, ho, rfl⟩)
      · cases he

end Sampler

/-! ## What a call does to caches, stores and files -/

/-- **A condition on the caches, the stores and the files.** -/
def Shared.OfContents (Q : Shared → Prop) : Prop :=
  ∀ {s t : Shared}, Q s → t.caches = s.caches → t.stores = s.stores → t.files = s.files → Q t

section Contents

variable {Q : Shared → Prop}

theorem Job.lasts_ofContents (hQ : Shared.OfContents Q) (job : Job σ) :
    job.Lasts fun r => Q r.shared where
  stops := id
  starts h _ _ := hQ h rfl rfl rfl
  aborts {r site e} h _ _ := by
    obtain ⟨c, hc⟩ := Run.abort_eq r (.siteFailed site e)
    rw [hc]
    exact hQ h rfl rfl rfl

/-- A condition that the execution of a unit keeps holds when the unit has been taken
back. -/
theorem Job.receive_ofContents (hQ : Shared.OfContents Q) {job : Job σ} {u : WorkUnit}
    {r : Run} (h : Q (u.execution job r.executions r.shared).2) :
    Q (job.receive u r).shared := by
  obtain ⟨c, hc⟩ := job.shared_receive u r
  rw [hc]
  exact hQ h rfl rfl rfl

namespace Sampler

variable {g : Sampler σ} {steps : Nat} {s : Shared}

/-- **A condition that all executions of a call keep** holds of every run that it
reaches. -/
theorem Reaches.ofContents (hQ : Shared.OfContents Q) (hprior : Q (g.priorExecution s).2)
    (hunit : ∀ {u r}, g.Executes steps s u r → Q r.shared →
      Q (u.execution g.job r.executions r.shared).2)
    {r : Run} (hr : g.Reaches steps s r) : Q r.shared := by
  induction hr with
  | first begins =>
    show Q _
    rw [begins.shared]
    exact hQ hprior rfl rfl rfl
  | turn before front ih =>
    have hl := (g.job.lasts_ofContents hQ).launched ih
    exact Job.receive_ofContents hQ (hunit (.intro before front) hl)

theorem conclude_ofContents (hQ : Shared.OfContents Q) (g : Sampler σ)
    (result : Except Error (List (String × Json))) (h : Q s) :
    Q (g.conclude s result).2 := by
  unfold conclude
  split
  · exact h
  · split
    · exact hQ h rfl rfl rfl
    · exact h

/-- **A condition that all executions of a call keep** holds after the call. -/
theorem sample_ofContents (hQ : Shared.OfContents Q) (hprior : Q (g.priorExecution s).2)
    (hunit : ∀ {u r}, g.Executes steps s u r → Q r.shared →
      Q (u.execution g.job r.executions r.shared).2) :
    Q (g.sample steps s).2.2 := by
  have hpass : Q (g.priorPass s).2.2 := hQ hprior rfl rfl rfl
  unfold sample
  rcases hp : g.priorPass s with ⟨outcome, t, s'⟩
  rw [hp] at hpass
  dsimp only
  split
  · exact hpass
  · exact conclude_ofContents hQ _ _ hpass
  · split
    · exact conclude_ofContents hQ _ _ hpass
    · next hv =>
      obtain ⟨r, hr, hd⟩ := exists_reaches_lastRun (n := steps) ⟨hp, hv⟩
      refine conclude_ofContents hQ _ _ ?_
      show Q (g.lastRun steps t s').shared
      have hend := hr.ofContents hQ hprior hunit
      rcases hd with hd | hd
      · rw [hd]
        exact hend
      · rw [hd]
        exact (g.job.lasts_ofContents hQ).launched hend

end Sampler

end Contents

/-! ## One unit at a time -/

/-- **At most one unit is in flight**, and it is for the trace as it stands. -/
structure Run.Solo (posterior : Posterior) (r : Run) : Prop where
  graph : r.schedule.graph = .complete
  flight : r.queue = [] ∧ r.schedule.inFlight = []
    ∨ ∃ u, r.queue = [u] ∧ r.schedule.inFlight = [u.site]
      ∧ u.fixed = r.others u.site ∧ posterior u.site r.trace = .ok u.posterior

namespace Job

variable {job : Job σ}

theorem isInvariant_solo (job : Job σ) : job.IsInvariant (Run.Solo job.posterior) where
  stops h := ⟨h.graph, h.flight⟩
  starts {r site d} h hw hd := by
    -- A site has been found, so nothing is in flight.
    have hnil := Schedule.inFlight_eq_nil_of_findWork h.graph hw
    refine ⟨h.graph, .inr ⟨⟨site, d, r.others site, r.root.deeper,
      (r.shared.newChild job.token).1⟩, ?_, ?_, rfl, hd⟩⟩
    · show r.queue ++ [_] = [_]
      rcases h.flight with ⟨hq, -⟩ | ⟨u, -, hf, -⟩
      · rw [hq]
        rfl
      · rw [hnil] at hf
        cases hf
    · show Schedule.addNew r.schedule.inFlight site = [site]
      rw [hnil]
      rfl
  aborts {r site e} h _ _ := by
    obtain ⟨c, hc⟩ := Run.abort_eq r (.siteFailed site e)
    rw [hc]
    exact ⟨h.graph, h.flight⟩
  takes {r u rest} h hq := by
    have got := job.received_receive u { r with queue := rest }
    refine ⟨got.graph.trans h.graph, .inl ?_⟩
    rcases h.flight with ⟨hn, -⟩ | ⟨u', hu, hf, -⟩
    · rw [hn] at hq
      cases hq
    · rw [hu] at hq
      cases hq
      refine ⟨got.queue, got.inFlight.trans ?_⟩
      show r.schedule.inFlight.erase u.site = []
      rw [hf]
      exact List.erase_cons_head _ _

end Job

/-- **With complete dependencies units are executed one at a time**, each with
all other sites fixed at their values in the trace, and with the posterior of
that trace. -/
theorem Sampler.Executes.solo {g : Sampler σ} {steps : Nat} {s : Shared}
    (hg : g.settings.dependencies = .complete) {u : WorkUnit} {r : Run}
    (h : g.Executes steps s u r) :
    r.queue = [] ∧ u.fixed = r.others u.site
      ∧ g.posterior u.site r.trace = .ok u.posterior := by
  cases h with
  | @intro r₀ _ rest before front =>
    have hsolo := g.job.isInvariant_solo.launched
      (before.keeps g.job.isInvariant_solo fun _ => ⟨by
        show (g.settings.dependencies.graph) = _
        rw [hg]
        rfl, .inl ⟨rfl, rfl⟩⟩)
    rcases hsolo.flight with ⟨hn, -⟩ | ⟨u', hu, -, hfix, hpost⟩
    · rw [hn] at front
      cases front
    · rw [hu] at front
      cases front
      exact ⟨rfl, hfix, hpost⟩

/-! ## A small sampler -/

/-- **A sampler of a model over one standard interpreter**, for cases in which
everything is computed. Its chain has the number 0 and its token the number
1. -/
def Sampler.small (model : Model σ) (observed : List (String × Json)) : Sampler σ :=
  .create model observed .standard .prior (.link 0 (.standard true) .empty) (.ofId 1)

/-- The state in which a small sampler is called. -/
def Shared.small : Shared := { Shared.start "/" with next := 2 }

/-- A distribution that answers a key with its depth. -/
def Distribution.ofDepth : Distribution :=
  ⟨.string "depth", fun k => .value (.ofNat k.depth)⟩

end Resampler
