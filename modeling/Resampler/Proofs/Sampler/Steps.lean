import Resampler.Proofs.Sampler.Completeness

/-!
# One step at a time

Where every site depends on every other, a run is at rest between two units: nothing
is in flight, and what comes next is decided by the trace, the counts, the next key
and the state of the interpreters. The budget says only how often there is a next
unit (`Run.grant`). So to drive a run for some steps is to take one step that often
(`Job.advance_succ`), and a call with a larger budget goes on where one with a
smaller budget stopped.

A step can fail in three places: the local posterior refuses a distribution, before
a key is split and a unit started; the program of the unit ends with an error; or it
panics (`Job.Fails`). None of them leaves anything behind in the trace or the
counts, and a run that has failed does not go on. Therefore every larger budget
comes to the same error, and to the trace and the counts of the last budget without
it.
-/

namespace Resampler

variable {σ : Type}

/-! ## Granting steps -/

/-- A schedule with another number of steps to start. -/
def Schedule.grant (s : Schedule) (n : Nat) : Schedule := { s with pending := n }

namespace Run

/-- A run with another number of steps to start. -/
def grant (r : Run) (n : Nat) : Run := { r with schedule := r.schedule.grant n }

/-- **A run at rest**: every site depends on every other, and nothing is in flight. -/
structure Rests (r : Run) : Prop where
  graph : r.schedule.graph = .complete
  queue : r.queue = []
  inFlight : r.schedule.inFlight = []

variable {r : Run}

/-- The run in which the cancellation of the sampler is seen. -/
def stop (r : Run) : Run := { r with stopped := true, schedule := r.schedule.drain }

theorem isOpen_stop (r : Run) : r.stop.isOpen = false := by simp [stop, isOpen]

theorem Rests.grant (h : r.Rests) (n : Nat) : (r.grant n).Rests :=
  ⟨h.graph, h.queue, h.inFlight⟩

theorem Rests.stop (h : r.Rests) : r.stop.Rests := ⟨h.graph, h.queue, h.inFlight⟩

theorem Rests.abort (h : r.Rests) (e : Error) : (r.abort e).Rests :=
  ⟨h.graph, h.queue, h.inFlight⟩

end Run

namespace Schedule

theorem addSite_grant (s : Schedule) (n : Nat) (site : String) :
    (s.grant n).addSite site = (s.addSite site).grant n := by
  unfold addSite
  rw [apply_ite (fun s => grant s n)]
  rfl

theorem finish_grant (s : Schedule) (n : Nat) (site : String) :
    (s.grant n).finish site = (s.finish site).grant n := by
  unfold finish
  rw [apply_ite (fun s => grant s n)]
  rfl

/-- What is found does not depend on how many steps are left, if there is one. -/
theorem findWork_grant (s : Schedule) (n : Nat) :
    (s.grant (n + 1)).findWork = (s.grant 1).findWork := by
  unfold findWork
  exact (if_neg (Nat.succ_ne_zero n)).trans (if_neg (Nat.succ_ne_zero 0)).symm

theorem foldl_join_grant (l : List (String × TraceNode)) (s : Schedule) (n : Nat) :
    l.foldl Run.join (s.grant n) = (l.foldl Run.join s).grant n := by
  induction l generalizing s with
  | nil => rfl
  | cons e rest ih =>
    rw [List.foldl_cons, List.foldl_cons, ← ih]
    congr 1
    unfold Run.join
    split
    · rfl
    · exact addSite_grant s n e.1

end Schedule

/-- **Taking a unit back** does the same with any number of steps left, and leaves that
number as it is unless the run is closed now. -/
theorem Run.exists_settle_grant (r : Run) (site : String) (result : Except Error Trace)
    (n : Nat) : ∃ m, (r.grant n).settle site result = (r.settle site result).grant m
      ∧ ((r.settle site result).isOpen = true → m = n) := by
  cases result with
  | ok nodes =>
    refine ⟨n, ?_, fun _ => rfl⟩
    rw [settle_ok, settle_ok]
    show { r with
      schedule := (nodes.entries.foldl join (r.schedule.grant n)).finish site
      trace := r.trace.insertAll nodes.entries : Run } = _
    rw [Schedule.foldl_join_grant, Schedule.finish_grant]
    rfl
  | error e =>
    by_cases h : e.isCancelled = true ∨ r.isOpen = false
    · refine ⟨n, ?_, fun _ => rfl⟩
      rw [settle_of_drops h, settle_of_drops (r := r.grant n) h]
      rfl
    · rw [not_or, Bool.not_eq_true, Bool.not_eq_false] at h
      -- An aborted run has no steps left, whatever it had before.
      rw [settle_of_fails h.1 h.2, settle_of_fails (r := r.grant n) h.1 h.2]
      exact ⟨0, rfl, nofun⟩

namespace Job

variable {job : Job σ} {r : Run}

theorem exists_receive_grant (job : Job σ) (u : WorkUnit) (r : Run) (n : Nat) :
    ∃ m, job.receive u (r.grant n) = (job.receive u r).grant m
      ∧ ((job.receive u r).isOpen = true → m = n) :=
  Run.exists_settle_grant { r with
    executions := r.executions + 1
    shared := (u.resample job r.executions r.shared).2 } u.site
    (u.resample job r.executions r.shared).1 n

/-! ## What comes next -/

/-- **A run that goes on**, for it is open and the sampler has not been cancelled. -/
structure IsLive (job : Job σ) (r : Run) : Prop where
  opened : r.isOpen = true
  uncancelled : r.shared.isCancelled job.token = false

theorem IsLive.grant (h : job.IsLive r) (n : Nat) : job.IsLive (r.grant n) :=
  ⟨h.opened, h.uncancelled⟩

/-- The unit that is started for a site. -/
def unitFor (job : Job σ) (r : Run) (site : String) (d : Distribution) : WorkUnit :=
  ⟨site, d, r.others site, r.root.deeper, (r.shared.newChild job.token).1⟩

/-- **A unit that is started next**, if there is a step left. -/
structure Starts (job : Job σ) (r : Run) (u : WorkUnit) : Prop where
  live : job.IsLive r
  found : (r.schedule.grant 1).findWork = some u.site
  answered : job.posterior u.site r.trace = .ok u.posterior
  unit : u = job.unitFor r u.site u.posterior

/-- **What comes next in a run at rest**, if there is a step left. -/
inductive Next (job : Job σ) (r : Run) : Prop where
  /-- Nothing, for the run is closed. -/
  | closed (ended : r.isOpen = false)
  /-- The run stops, for the sampler has been cancelled. -/
  | stops (opened : r.isOpen = true) (cancelled : r.shared.isCancelled job.token = true)
  /-- Nothing, for no site is found. -/
  | idles (live : job.IsLive r) (none : (r.schedule.grant 1).findWork = none)
  /-- The local posterior fails. -/
  | refuses (live : job.IsLive r) {site : String} {e : Error}
    (found : (r.schedule.grant 1).findWork = some site)
    (refused : job.posterior site r.trace = .error e)
  /-- A unit is started. -/
  | starts {u : WorkUnit} (started : job.Starts r u)

theorem next_cases (job : Job σ) (r : Run) : job.Next r := by
  cases ho : r.isOpen with
  | false => exact .closed ho
  | true =>
    cases hc : r.shared.isCancelled job.token with
    | true => exact .stops ho hc
    | false =>
      cases hw : (r.schedule.grant 1).findWork with
      | none => exact .idles ⟨ho, hc⟩ hw
      | some site =>
        cases hd : job.posterior site r.trace with
        | error e => exact .refuses ⟨ho, hc⟩ hw hd
        | ok d => exact .starts (u := job.unitFor r site d) ⟨⟨ho, hc⟩, hw, hd, rfl⟩

theorem launched_of_closed (h : r.isOpen = false) : job.launched r = r := by
  unfold launched watch startAll
  simp [h]

theorem launched_of_cancelled (ho : r.isOpen = true)
    (hc : r.shared.isCancelled job.token = true) :
    job.launched r = r.stop := by
  have hw : job.watch r = r.stop := by
    unfold watch
    rw [ho, hc]
    rfl
  rw [launched, hw, startAll, r.isOpen_stop, if_neg Bool.false_ne_true]

theorem launched_of_live (h : job.IsLive r) :
    job.launched r = job.startUpTo r.schedule.pending r := by
  have hw : job.watch r = r := by
    unfold watch
    rw [h.opened, h.uncancelled]
    rfl
  rw [launched, hw, startAll, if_pos h.opened]

theorem launched_of_idle (h : job.IsLive r) (hw : (r.schedule.grant 1).findWork = none)
    (n : Nat) : job.launched (r.grant n) = r.grant n := by
  rw [launched_of_live (h.grant _)]
  cases n with
  | zero => rfl
  | succ n =>
    show job.startUpTo (n + 1) (r.grant (n + 1)) = _
    rw [startUpTo, show (r.grant (n + 1)).schedule.findWork = none from
      (r.schedule.findWork_grant n).trans hw]

theorem launched_of_refused {site : String} {e : Error} (h : job.IsLive r)
    (hw : (r.schedule.grant 1).findWork = some site)
    (he : job.posterior site r.trace = .error e) (n : Nat) :
    job.launched (r.grant (n + 1)) = r.abort (.siteFailed site e) := by
  rw [launched_of_live (h.grant _)]
  show job.startUpTo (n + 1) (r.grant (n + 1)) = _
  rw [startUpTo, show (r.grant (n + 1)).schedule.findWork = some site from
    (r.schedule.findWork_grant n).trans hw]
  dsimp only
  rw [show job.posterior site (r.grant (n + 1)).trace = .error e from he]
  rfl

/-- The run in which a unit has just been started. -/
def withUnit (job : Job σ) (r : Run) (u : WorkUnit) : Run :=
  r.start job.token u.site u.posterior

theorem queue_withUnit {u : WorkUnit} (hr : r.Rests) (h : job.Starts r u) (n : Nat) :
    ((job.withUnit r u).grant n).queue = [u] := by
  show r.queue ++ [job.unitFor r u.site u.posterior] = [u]
  rw [hr.queue, ← h.unit]
  rfl

/-- **Only one unit is started**, for every other site depends on its site. -/
theorem launched_of_started {u : WorkUnit} (hr : r.Rests) (h : job.Starts r u) (n : Nat) :
    job.launched (r.grant (n + 1)) = (job.withUnit r u).grant n := by
  have hsome : (r.grant (n + 1)).schedule.findWork = some u.site :=
    (r.schedule.findWork_grant n).trans h.found
  rw [launched_of_live (h.live.grant _)]
  show job.startUpTo (n + 1) (r.grant (n + 1)) = _
  rw [startUpTo, hsome]
  dsimp only
  rw [show job.posterior u.site (r.grant (n + 1)).trace = .ok u.posterior from h.answered]
  show job.startUpTo n ((job.withUnit r u).grant n) = _
  -- With the site in flight no other is feasible.
  have hnone : ((job.withUnit r u).grant n).schedule.findWork = none := by
    refine Option.eq_none_iff_forall_ne_some.mpr fun y hy => ?_
    have hin : Schedule.addNew r.schedule.inFlight u.site = [] :=
      Schedule.inFlight_eq_nil_of_findWork
        (s := ((job.withUnit r u).grant n).schedule) hr.graph hy
    rw [hr.inFlight] at hin
    exact absurd hin (List.cons_ne_nil _ _)
  cases n with
  | zero => rfl
  | succ n => rw [startUpTo, hnone]

/-- With no step left nothing is started. -/
theorem launched_of_spent (h : job.IsLive r) : job.launched (r.grant 0) = r.grant 0 :=
  launched_of_live (h.grant 0)

/-- **What is in the queue has just been started**, and is alone there. -/
theorem queue_launched (job : Job σ) (hr : r.Rests) (n : Nat) :
    (job.launched (r.grant n)).queue = []
      ∨ ∃ u m, job.Starts r u ∧ n = m + 1 ∧ (job.launched (r.grant n)).queue = [u] := by
  cases job.next_cases r with
  | closed ho =>
    have hl : job.launched (r.grant n) = r.grant n := launched_of_closed ho
    exact .inl ((congrArg Run.queue hl).trans hr.queue)
  | stops ho hc =>
    have hl := launched_of_cancelled (r := r.grant n) ho hc
    exact .inl ((congrArg Run.queue hl).trans hr.queue)
  | idles live hw => exact .inl ((congrArg Run.queue (launched_of_idle live hw n)).trans hr.queue)
  | refuses live hw he =>
    cases n with
    | zero => exact .inl ((congrArg Run.queue (launched_of_spent live)).trans hr.queue)
    | succ n => exact .inl ((congrArg Run.queue (launched_of_refused live hw he n)).trans hr.queue)
  | @starts u hs =>
    cases n with
    | zero => exact .inl ((congrArg Run.queue (launched_of_spent hs.live)).trans hr.queue)
    | succ n =>
      exact .inr ⟨u, n, hs, rfl,
        (congrArg Run.queue (launched_of_started hr hs n)).trans (queue_withUnit hr hs n)⟩

theorem starts_of_queue {u : WorkUnit} {rest : List WorkUnit} {n : Nat} (hr : r.Rests)
    (h : (job.launched (r.grant n)).queue = u :: rest) :
    job.Starts r u ∧ rest = [] ∧ ∃ m, n = m + 1 := by
  rcases job.queue_launched hr n with hnil | ⟨u', m, hs, hn, hq⟩
  · exact absurd (hnil.symm.trans h) nofun
  · obtain ⟨rfl, rfl⟩ := List.cons_eq_cons.mp (hq.symm.trans h)
    exact ⟨hs, rfl, m, hn⟩

/-! ## The law of steps -/

/-- **The run after some more steps**, or as many of them as there can be. -/
def advance (job : Job σ) (n : Nat) (r : Run) : Run :=
  (job.drive (n + 1) (r.grant n)).grant 0

/-- **One step.** -/
def step (job : Job σ) (r : Run) : Run := job.advance 1 r

/-- How many steps were left before does not matter. -/
theorem advance_grant (job : Job σ) (n m : Nat) (r : Run) :
    job.advance n (r.grant m) = job.advance n r := rfl

/-- Where starting leaves nothing in flight, there are no more steps. -/
theorem advance_of_nil {r' : Run} {n : Nat} (h : job.launched (r.grant n) = r')
    (hq : r'.queue = []) : job.advance n r = r'.grant 0 := by
  rw [advance, drive_of_nil (h ▸ hq), h]

theorem advance_of_closed (hr : r.Rests) (h : r.isOpen = false) (n : Nat) :
    job.advance n r = r.grant 0 := by
  rw [advance_of_nil (launched_of_closed (r := r.grant n) h) (hr.grant n).queue]
  rfl

theorem advance_of_cancelled (hr : r.Rests) (ho : r.isOpen = true)
    (hc : r.shared.isCancelled job.token = true) (n : Nat) : job.advance n r = r.stop :=
  advance_of_nil (launched_of_cancelled (r := r.grant n) ho hc) hr.queue

theorem advance_of_idle (hr : r.Rests) (h : job.IsLive r)
    (hw : (r.schedule.grant 1).findWork = none) (n : Nat) : job.advance n r = r.grant 0 := by
  rw [advance_of_nil (launched_of_idle h hw n) (hr.grant n).queue]
  rfl

theorem advance_zero_of_live (hr : r.Rests) (h : job.IsLive r) :
    job.advance 0 r = r.grant 0 := by
  rw [advance_of_nil (launched_of_spent h) (hr.grant 0).queue]
  rfl

theorem advance_of_refused {site : String} {e : Error} (hr : r.Rests) (h : job.IsLive r)
    (hw : (r.schedule.grant 1).findWork = some site)
    (he : job.posterior site r.trace = .error e) (n : Nat) :
    job.advance (n + 1) r = r.abort (.siteFailed site e) :=
  advance_of_nil (launched_of_refused h hw he n) hr.queue

/-- The run after the unit that was started has been taken back. -/
def afterUnit (job : Job σ) (r : Run) (u : WorkUnit) : Run :=
  job.receive u { job.withUnit r u with queue := [] }

theorem rests_afterUnit (hr : r.Rests) (u : WorkUnit) : (job.afterUnit r u).Rests := by
  have got := job.received_receive u { job.withUnit r u with queue := [] }
  refine ⟨got.graph.trans hr.graph, got.queue, got.inFlight.trans ?_⟩
  show (Schedule.addNew r.schedule.inFlight u.site).erase u.site = []
  rw [hr.inFlight]
  exact List.erase_cons_head _ _

/-- **Where a unit is started, it is taken back next**, with as many steps left as there
were, unless it fails the run. -/
theorem exists_receive_launched {u : WorkUnit} (hr : r.Rests) (h : job.Starts r u) (n : Nat) :
    ∃ m, job.receive u { job.launched (r.grant (n + 1)) with queue := [] }
        = (job.afterUnit r u).grant m
      ∧ ((job.afterUnit r u).isOpen = true → m = n) := by
  rw [launched_of_started hr h]
  exact job.exists_receive_grant u { job.withUnit r u with queue := [] } n

/-- **What comes after the unit is up to the steps that are left.** -/
theorem advance_of_started {u : WorkUnit} (hr : r.Rests) (h : job.Starts r u) (n : Nat) :
    job.advance (n + 1) r = job.advance n (job.afterUnit r u) := by
  have hq : (job.launched (r.grant (n + 1))).queue = [u] := by
    rw [launched_of_started hr h, queue_withUnit hr h]
  obtain ⟨m, hm, hopen⟩ := exists_receive_launched hr h n
  have hrests := job.rests_afterUnit hr u
  rw [advance, drive_of_cons hq, hm]
  cases ho : (job.afterUnit r u).isOpen with
  | true => rw [hopen ho]; rfl
  | false =>
    -- In a closed run nothing is started, with whatever number of steps.
    have hclosed : job.launched ((job.afterUnit r u).grant m) = (job.afterUnit r u).grant m :=
      launched_of_closed ho
    rw [advance_of_closed hrests ho, drive_of_nil (by rw [hclosed]; exact hrests.queue), hclosed]
    rfl

theorem advance_zero_cases (job : Job σ) (hr : r.Rests) :
    job.advance 0 r = r.grant 0 ∨ job.advance 0 r = r.stop ∧ r.isOpen = true
      ∧ r.shared.isCancelled job.token = true := by
  cases job.next_cases r with
  | closed h => exact .inl (advance_of_closed hr h 0)
  | stops ho hc => exact .inr ⟨advance_of_cancelled hr ho hc 0, ho, hc⟩
  | idles live | refuses live => exact .inl (advance_zero_of_live hr live)
  | starts hs => exact .inl (advance_zero_of_live hr hs.live)

theorem rests_advance_zero (hr : r.Rests) : (job.advance 0 r).Rests := by
  rcases job.advance_zero_cases hr with h | ⟨h, -⟩
  · exact h ▸ hr.grant 0
  · exact h ▸ hr.stop

/-- **Looking whether the sampler has been cancelled** does not change what comes next. -/
theorem advance_advance_zero (hr : r.Rests) (n : Nat) :
    job.advance n (job.advance 0 r) = job.advance n r := by
  rcases job.advance_zero_cases hr with h | ⟨h, ho, hc⟩
  · rw [h, advance_grant]
  · rw [h, advance_of_cancelled hr ho hc]
    exact advance_of_closed hr.stop r.isOpen_stop n

/-- **A number of steps is one step and then the others.** -/
theorem advance_succ (hr : r.Rests) (n : Nat) :
    job.advance (n + 1) r = job.advance n (job.step r) := by
  unfold step
  cases job.next_cases r with
  | closed h =>
    rw [advance_of_closed hr h, advance_of_closed hr h]
    exact (advance_of_closed (hr.grant 0) h n).symm
  | stops ho hc =>
    rw [advance_of_cancelled hr ho hc, advance_of_cancelled hr ho hc]
    exact (advance_of_closed hr.stop r.isOpen_stop n).symm
  | idles live hw =>
    rw [advance_of_idle hr live hw, advance_of_idle hr live hw]
    exact (advance_of_idle hr live hw n).symm
  | refuses live hw he =>
    rw [advance_of_refused hr live hw he, advance_of_refused hr live hw he]
    exact (advance_of_closed (hr.abort _) (Run.isOpen_abort r _) n).symm
  | starts hs =>
    rw [advance_of_started hr hs, advance_of_started hr hs,
      advance_advance_zero (job.rests_afterUnit hr _)]

theorem rests_step (hr : r.Rests) : (job.step r).Rests := by
  unfold step
  cases job.next_cases r with
  | closed h => exact (advance_of_closed hr h 1) ▸ hr.grant 0
  | stops ho hc => exact (advance_of_cancelled hr ho hc 1) ▸ hr.stop
  | idles live hw => exact (advance_of_idle hr live hw 1) ▸ hr.grant 0
  | refuses live hw he => exact (advance_of_refused hr live hw he 0) ▸ hr.abort _
  | starts hs =>
    rw [advance_of_started hr hs]
    exact rests_advance_zero (job.rests_afterUnit hr _)

/-- **A number of steps is the others and then one step.** -/
theorem advance_succ_eq_step (hr : r.Rests) (n : Nat) :
    job.advance (n + 1) r = job.step (job.advance n r) := by
  induction n generalizing r with
  | zero => exact (advance_advance_zero hr 1).symm
  | succ n ih => rw [advance_succ hr, ih (rests_step hr), advance_succ hr]

/-! ## Steps that fail -/

/-- **A step that fails**: the site it is for, and the error. -/
inductive Fails (job : Job σ) (r : Run) : String → Error → Prop where
  /-- The local posterior of the site that is found returns an error. -/
  | posterior {site : String} {e : Error} (live : job.IsLive r)
    (found : (r.grant 1).schedule.findWork = some site)
    (refused : job.posterior site r.trace = .error e) : Fails job r site e
  /-- The program of the unit that is started returns an error. -/
  | program {u : WorkUnit} {e : Error} (started : (job.launched (r.grant 1)).queue = [u])
    (ended : (u.execution job (job.launched (r.grant 1)).executions
      (job.launched (r.grant 1)).shared).1.1 = .failure e) : Fails job r u.site e
  /-- The unit that is started panics. -/
  | panic {u : WorkUnit} {payload : Option String}
    (started : (job.launched (r.grant 1)).queue = [u])
    (ended : (u.execution job (job.launched (r.grant 1)).executions
      (job.launched (r.grant 1)).shared).1.1 = .panic payload) :
    Fails job r u.site (.panicked (panicText payload))

/-- **A run that a step has halted**: it has failed, with the trace and the counts of
another one. -/
structure Halts (r : Run) (e : Error) (r' : Run) : Prop where
  failure : r'.failure = some e
  trace : r'.trace = r.trace
  counts : r'.schedule.counts = r.schedule.counts

/-- **A unit that fails halts the run** in which it was started. -/
theorem halts_of_unit {u : WorkUnit} {e : Error} (hr : r.Rests)
    (hu : (job.launched (r.grant 1)).queue = [u])
    (he : (u.resample job (job.launched (r.grant 1)).executions
      (job.launched (r.grant 1)).shared).1 = .error e)
    (hc : e.isCancelled = false) : Halts r (.siteFailed u.site e) (job.step r) := by
  obtain ⟨hs, -, -⟩ := starts_of_queue hr hu
  rw [launched_of_started hr hs] at he
  have hafter : job.afterUnit r u = Run.abort { job.withUnit r u with
      queue := []
      executions := r.executions + 1
      shared := (u.resample job r.executions (job.withUnit r u).shared).2
      schedule := (r.schedule.begin u.site).abandon u.site } (.siteFailed u.site e) := by
    have he' : (u.resample job r.executions (job.withUnit r u).shared).1 = .error e := he
    show Run.settle _ u.site (u.resample job r.executions (job.withUnit r u).shared).1 = _
    rw [he']
    exact Run.settle_of_fails hc hs.live.opened
  have hclosed : (job.afterUnit r u).isOpen = false := by rw [hafter]; rfl
  have hstep : job.step r = (job.afterUnit r u).grant 0 := by
    rw [step, advance_of_started hr hs, advance_of_closed (job.rests_afterUnit hr u) hclosed]
  rw [hstep, hafter]
  exact ⟨rfl, rfl, rfl⟩

end Job

namespace WorkUnit

variable {u : WorkUnit} {job : Job σ} {index : Nat} {s : Shared}

/-- A unit fails with the error of its program. -/
theorem resample_of_failure {e : Error} (h : (u.execution job index s).1.1 = .failure e) :
    (u.resample job index s).1 = .error e := by
  unfold resample
  dsimp only
  split
  · next ho => exact absurd (ho.symm.trans h) nofun
  · next ho =>
    cases ho.symm.trans h
    rfl
  · next ho => exact absurd (ho.symm.trans h) nofun

/-- A unit that panics fails with the text of the panic. -/
theorem resample_of_panic {payload : Option String}
    (h : (u.execution job index s).1.1 = .panic payload) :
    (u.resample job index s).1 = .error (.panicked (panicText payload)) := by
  unfold resample
  dsimp only
  split
  · next ho => exact absurd (ho.symm.trans h) nofun
  · next ho => exact absurd (ho.symm.trans h) nofun
  · next ho =>
    cases ho.symm.trans h
    rfl

end WorkUnit

/-- **A step that fails halts the run**, whatever it fails of. -/
theorem Job.Fails.halts {job : Job σ} {r : Run} {site : String} {e : Error}
    (h : job.Fails r site e) (hr : r.Rests) (hc : e.isCancelled = false) :
    Job.Halts r (.siteFailed site e) (job.step r) := by
  cases h with
  | posterior live found refused =>
    rw [step, advance_of_refused hr live found refused]
    exact ⟨rfl, rfl, rfl⟩
  | program started ended =>
    exact halts_of_unit hr started (WorkUnit.resample_of_failure ended) hc
  | panic started ended =>
    exact halts_of_unit hr started (WorkUnit.resample_of_panic ended) hc

/-! ## Calls with different budgets -/

namespace Sampler

variable {g : Sampler σ} {s : Shared} {n : Nat}

/-- **The run of a call after so many steps**, or as many of them as there can be. -/
def runAfter (g : Sampler σ) (s : Shared) (n : Nat) : Run :=
  g.job.advance n (g.stage 0 s 0)

theorem rests_stage_zero (hg : g.settings.dependencies = .complete) :
    (g.stage n s 0).Rests :=
  ⟨by show g.settings.dependencies.graph = _; rw [hg]; rfl, rfl, rfl⟩

theorem runAfter_succ (hg : g.settings.dependencies = .complete) (n : Nat) :
    g.runAfter s (n + 1) = g.job.step (g.runAfter s n) :=
  Job.advance_succ_eq_step (rests_stage_zero hg) n

theorem rests_runAfter (hg : g.settings.dependencies = .complete) (n : Nat) :
    (g.runAfter s n).Rests := by
  induction n with
  | zero => exact Job.rests_advance_zero (rests_stage_zero hg)
  | succ n ih => exact (runAfter_succ hg n) ▸ Job.rests_step ih

/-- **A call answers what the run after its steps does**, and leaves the trace and the
counts of that run. -/
theorem sample_eq_ended {t : Trace} {s' : Shared} (h : g.Begins s t s') (n : Nat) :
    g.sample n s = { g with
      trace := (g.runAfter s n).trace
      counts := (g.runAfter s n).schedule.counts
      executions := (g.runAfter s n).executions }.ended (g.runAfter s n).shared
        (g.answer (g.runAfter s n)) := by
  have hrun : g.runAfter s n = (g.lastRun n t s').grant 0 := by
    show (g.job.drive (n + 1) ((g.stage 0 s 0).grant n)).grant 0 = _
    rw [stage, h.passed]
    rfl
  rw [sample_of_begins h, hrun]
  rfl

theorem sample_trace {t : Trace} {s' : Shared} (h : g.Begins s t s') (n : Nat) :
    (g.sample n s).2.1.trace = (g.runAfter s n).trace := by
  rw [sample_eq_ended h]
  exact conclude_trace _ _ _

theorem sample_counts {t : Trace} {s' : Shared} (h : g.Begins s t s') (n : Nat) :
    (g.sample n s).2.1.counts = (g.runAfter s n).schedule.counts := by
  rw [sample_eq_ended h]
  exact conclude_counts _ _ _

/-! ### On the way -/

/-- **A run in step with calls of smaller budgets**: it goes on like one of them, and has
the trace and the counts of the one with as many steps as it has completed. -/
structure InStep (g : Sampler σ) (s : Shared) (r : Run) : Prop where
  rests : r.Rests
  follows : ∃ j, g.job.advance 0 r = g.runAfter s j
    ∧ (r.isOpen = true → r.schedule.total = j)
  trace : r.trace = (g.runAfter s r.schedule.total).trace
  counts : r.schedule.counts = (g.runAfter s r.schedule.total).schedule.counts

/-- A run at rest that goes on like a smaller call of as many steps as it has completed is
in step. -/
theorem inStep_of_total {r : Run} (hr : r.Rests)
    (h : g.job.advance 0 r = g.runAfter s r.schedule.total) : g.InStep s r := by
  have hsame : (g.job.advance 0 r).trace = r.trace
      ∧ (g.job.advance 0 r).schedule.counts = r.schedule.counts := by
    rcases g.job.advance_zero_cases hr with he | ⟨he, -⟩
    · rw [he]
      exact ⟨rfl, rfl⟩
    · rw [he]
      exact ⟨rfl, rfl⟩
  rw [h] at hsame
  exact ⟨hr, ⟨_, h, fun _ => rfl⟩, hsame.1.symm, hsame.2.symm⟩

/-- **Taking a unit back is one step** of a run that was open, for the run that goes on. -/
theorem receive_isStep {job : Job σ} {r : Run} {u : WorkUnit} {rest : List WorkUnit}
    (hr : r.Rests) (hq : (job.launched r).queue = u :: rest) :
    (r.isOpen = true ∧ (job.launched r).isOpen = true)
      ∧ (job.receive u { job.launched r with queue := rest }).Rests
      ∧ job.advance 0 (job.receive u { job.launched r with queue := rest })
        = job.step (job.advance 0 r) := by
  obtain ⟨hs, rfl, m, hpending⟩ := Job.starts_of_queue (n := r.schedule.pending) hr hq
  have hsame : r.grant (m + 1) = r := by rw [← hpending]; rfl
  have hl := Job.launched_of_started hr hs m
  obtain ⟨k, hk, -⟩ := Job.exists_receive_launched hr hs m
  rw [hsame] at hk hl
  refine ⟨⟨hs.live.opened, by rw [hl]; exact hs.live.opened⟩, ?_⟩
  rw [hk, ← Job.advance_succ_eq_step hr, Job.advance_of_started hr hs]
  exact ⟨(job.rests_afterUnit hr u).grant k, rfl⟩

/-- **A unit that closes a run leaves its trace and its counts alone.** -/
theorem receive_of_closes {job : Job σ} {r : Run} {u : WorkUnit} (hr : r.isOpen = true)
    (h : (job.receive u r).isOpen = false) :
    (job.receive u r).trace = r.trace
      ∧ (job.receive u r).schedule.counts = r.schedule.counts := by
  unfold Job.receive at h ⊢
  dsimp only at h ⊢
  cases hres : (u.resample job r.executions r.shared).1 with
  | ok nodes =>
    rw [hres, Run.settle_ok] at h
    exact absurd (h.symm.trans hr) Bool.false_ne_true
  | error e =>
    rcases Run.settle_error { r with
      executions := r.executions + 1
      shared := (u.resample job r.executions r.shared).2 } u.site e with he | he
    · rw [he]
      exact ⟨rfl, rfl⟩
    · rw [he]
      exact ⟨rfl, rfl⟩

/-- **Every run that a call reaches is in step**, if no unit says that it was
cancelled. -/
theorem Reaches.inStep {r : Run} (hg : g.settings.dependencies = .complete)
    (hc : ∀ p ∈ g.ledger n s, ∀ e, p.2 = .error e → e.isCancelled = false)
    (h : g.Reaches n s r) : g.InStep s r := by
  induction h with
  | @first t s' begins =>
    have hstage : g.firstRun n t s' = g.stage n s 0 := by rw [stage, begins.passed]
    rw [hstage]
    refine inStep_of_total (rests_stage_zero hg) ?_
    rw [show (g.stage n s 0).schedule.total = 0 from Schedule.total_create _ _ _]
    rfl
  | @turn r u rest before front ih =>
    obtain ⟨j, hj, hopen⟩ := ih.follows
    obtain ⟨⟨hopened, hlaunched⟩, hrests, hnext⟩ := receive_isStep ih.rests front
    rw [hj, ← runAfter_succ hg] at hnext
    have huncancelled := hc _ (Executes.intro before front).mem_ledger
    cases ho : (g.job.receive u { g.job.launched r with queue := rest }).isOpen with
    | true =>
      have haligned := (g.job.isInvariant_aligned (.declared g.settings.dependencies)).launched
        before.isAligned
      have haccounts := ((g.job.books_launched r).append
        (Job.books_receive haligned front ho)).accounts fun p hp => by
          rw [List.nil_append, List.mem_singleton] at hp
          exact hp ▸ huncancelled
      refine inStep_of_total hrests ?_
      rw [haccounts.total, hopen hopened]
      exact hnext
    | false =>
      -- The unit failed, so the run has what it had, and is as far as it was.
      obtain ⟨htrace, hcounts⟩ := receive_of_closes
        (r := { g.job.launched r with queue := rest }) hlaunched ho
      replace hcounts := hcounts.trans (g.job.schedule_launched r).2
      have htotal : (g.job.receive u { g.job.launched r with queue := rest }).schedule.total
          = r.schedule.total := congrArg (fun counts => counts.values.sum) hcounts
      refine ⟨hrests, ⟨j + 1, hnext, fun hyes => absurd (ho.symm.trans hyes)
        Bool.false_ne_true⟩, ?_, ?_⟩
      · rw [htotal, ← ih.trace]
        exact htrace.trans (g.job.trace_launched r)
      · rw [htotal, ← ih.counts]
        exact hcounts

/-! ### After a step that fails -/

/-- **Calls with larger budgets stop where a step has failed.** -/
theorem halts_runAfter (hg : g.settings.dependencies = .complete) {k : Nat} {e : Error}
    (h : Job.Halts (g.runAfter s k) e (g.runAfter s (k + 1))) {n : Nat} (hn : k < n) :
    Job.Halts (g.runAfter s k) e (g.runAfter s n) := by
  induction hn with
  | refl => exact h
  | @step n _ ih =>
    have hclosed : (g.runAfter s n).isOpen = false := by simp [Run.isOpen, ih.failure]
    rw [runAfter_succ hg, Job.step, Job.advance_of_closed (rests_runAfter hg n) hclosed]
    exact ⟨ih.failure, ih.trace, ih.counts⟩

theorem answer_of_failure {r : Run} {e : Error} (h : r.failure = some e) :
    g.answer r = .error e := by
  unfold answer Run.result
  rw [h]

/-- **A call that fails** comes to an error, and leaves nothing that another did not. -/
structure FailsLike (g : Sampler σ) (s : Shared) (n k : Nat) (e : Error) : Prop where
  outcome : (g.sample n s).1 = .failure e
  phase : (g.sample n s).2.1.phase = .failed
  trace : (g.sample n s).2.1.trace = (g.sample k s).2.1.trace
  counts : (g.sample n s).2.1.counts = (g.sample k s).2.1.counts

theorem failsLike_of_halts {t : Trace} {s' : Shared} (h : g.Begins s t s') {k : Nat}
    {e : Error} (hc : e.isCancelled = false)
    (hhalts : Job.Halts (g.runAfter s k) e (g.runAfter s n)) : g.FailsLike s n k e := by
  have hanswer : g.answer (g.runAfter s n) = .error e := answer_of_failure hhalts.failure
  refine ⟨?_, ?_, ?_, ?_⟩
  · rw [sample_eq_ended h, hanswer]
    rfl
  · rw [sample_eq_ended h, hanswer, ended, conclude]
    dsimp only
    rw [hc]
    rfl
  · rw [sample_trace h, sample_trace h, hhalts.trace]
  · rw [sample_counts h, sample_counts h, hhalts.counts]

/-- **A sampler that takes one step at a time**, in a given state. -/
structure GoesByStep (g : Sampler σ) (s : Shared) : Prop where
  /-- A call with one more step in its budget takes one more step. -/
  iterates : ∀ n, g.runAfter s (n + 1) = g.job.step (g.runAfter s n)
  /-- A call depends on its budget only through the run after so many steps. -/
  ends : ∀ n, g.sample n s = { g with
    trace := (g.runAfter s n).trace
    counts := (g.runAfter s n).schedule.counts
    executions := (g.runAfter s n).executions }.ended (g.runAfter s n).shared
      (g.answer (g.runAfter s n))
  /-- A call that has completed some steps has the trace and the counts that a call with
  that budget leaves, if no unit says that it was cancelled. -/
  agrees : ∀ n, (∀ p ∈ g.ledger n s, ∀ e, p.2 = .error e → e.isCancelled = false) →
    ∀ r, g.Reaches n s r → r.trace = (g.sample r.schedule.total s).2.1.trace
      ∧ r.schedule.counts = (g.sample r.schedule.total s).2.1.counts
  /-- A step that fails fails all calls that come to it, for its site and with its error,
  and they leave what the call before it leaves. -/
  fails : ∀ k site e, g.job.Fails (g.runAfter s k) site e → e.isCancelled = false →
    ∀ n, k < n → g.FailsLike s n k (.siteFailed site e)

/-- A sampler whose second step panics. The first one has discovered a second site. -/
def withering : Sampler Unit :=
  .small (fun i c =>
    if i.index = 2 then .finish (.panic (some "boom")) () else sprouting.through c) []

/-- The site that the first step has discovered is still there after the second one. -/
example : (withering.sample 5 .small).2.1.counts.entries = [("x", 1), ("y", 0)] := by
  decide +kernel

end Sampler

end Resampler
