import Resampler.Proofs.Chain.Regime
import Resampler.Proofs.Program.Parallel
import Resampler.Proofs.Sampler.Course

/-!
# One sampler in two worlds

Two samplers that are equal but for their bases and tokens, called in states beside each
other, go through the same call: their prior passes record the same, their runs stay
abreast with the same schedule, trace and units, and they answer the same. All that is
needed of the bases is that they answer alike what they are asked for in the first call
(`Sampler.Along`), and of the model that it does not look into what it is handed.
-/

namespace Resampler

variable {σ : Type}

/-! ## What a sampler lays over its base -/

/-- **The layers that a sampler lays over its base.** The distributions that they bring in
are the local posteriors. -/
def Handler.IsLayer (D : Distribution → Prop) : Handler → Prop
  | .recorder => True
  | .condition _ => True
  | .thread _ => True
  | .substitute d => D d
  | _ => False

/-- None of them has a store. -/
theorem Handler.IsLayer.ne_persistent {D : Distribution → Prop} {h : Handler} (hl : h.IsLayer D)
    (i : Nat) : h ≠ .persistent i := by
  rintro rfl
  exact hl

theorem Sampler.laidOver_priorChain (g : Sampler σ) (D : Distribution → Prop) (n : Nat) :
    g.base.LaidOver (fun _ h => h.IsLayer D) (g.priorChain n) :=
  .link trivial (.link trivial (.link trivial .inner))

theorem WorkUnit.laidOver_chain {u : WorkUnit} {D : Distribution → Prop} (hu : D u.posterior)
    (base : Chain) (n : Nat) : base.LaidOver (fun _ h => h.IsLayer D) (u.chain base n) :=
  .link trivial (.link trivial
    (.branch (.link trivial (.link hu .inner)) (.link trivial .inner)))

/-- **What holds of all chains that the draws of a call come to**, of the site, the key and
the state with which they do. -/
structure Sampler.Along (P : Chain → Site → Option RandomKey → Shared → Prop)
    (g : Sampler σ) (steps : Nat) (s : Shared) : Prop where
  /-- In the prior pass. -/
  prior : (g.priorProgram s.next).Along P (g.priorStart s)
  /-- In every unit. -/
  units : ∀ {u r}, g.Executes steps s u r →
    (u.program g.job r.executions r.shared.next).Along P (u.prepare r.shared)

/-- **Calls that answer the same**, and leave the same if they answer. -/
structure Sampler.SameOutcome
    (out out' : Outcome Error (List (String × Json)) × Sampler σ × Shared) : Prop where
  /-- The answers are the same, also if they are errors. -/
  answer : out'.1 = out.1
  /-- With a value the traces are the same. -/
  trace : out.1.isValue = true → out'.2.1.trace = out.2.1.trace
  /-- With a value the counts are the same. -/
  counts : out.1.isValue = true → out'.2.1.counts = out.2.1.counts

namespace Pairing

variable {W : Pairing} {B : Belongings} {s t : Shared}

/-- Interpreters that neither ask, nor have a cache or a store, may stand in both
worlds. -/
theorem suits_of_ne {h : Handler} (hask : ∀ d, h ≠ .standard d) (hcache : ∀ i, h ≠ .memo i)
    (hstore : ∀ i, h ≠ .persistent i) : W.Suits h where
  asks _ _ he := absurd he (hask _)
  caches he := absurd he (hcache _)
  stores he := absurd he (hstore _)

/-! ## Samplers, runs and units that correspond -/

/-- **Samplers that are equal** but for their bases, their tokens and what they have been
used for. -/
structure SameSampler (W : Pairing) (B : Belongings) (g g' : Sampler σ) : Prop where
  model : g'.model = g.model
  observed : g'.observed = g.observed
  settings : g'.settings = g.settings
  posterior : g'.posterior = g.posterior
  token : W.SameToken g.token g'.token
  /-- The model does not look into what it is handed. It may count its executions, if the
  two samplers have had equally many. -/
  blind : ∀ k, g.model.IsBlind B (g.executions + k) (g'.executions + k)

/-- **Units that are equal** but for their tokens. -/
structure SameUnit (W : Pairing) (u u' : WorkUnit) : Prop where
  token : W.SameToken u.token u'.token
  rest : u' = { u with token := u'.token }

/-- **Runs abreast**, after so many executions before each of them. -/
structure Abreast (W : Pairing) (i j : Nat) (r r' : Run) : Prop where
  schedule : r'.schedule = r.schedule
  trace : r'.trace = r.trace
  root : r'.root = r.root
  queue : List.Forall₂ W.SameUnit r.queue r'.queue
  failure : r'.failure = r.failure
  stopped : r'.stopped = r.stopped
  executions : ∃ k, r.executions = i + k ∧ r'.executions = j + k
  shared : W.Beside r.shared r'.shared

variable {g g' : Sampler σ} {i j : Nat} {r r' : Run}

/-! ## Units -/

section Units

variable {P : Chain → Site → Option RandomKey → Shared → Prop} {u u' : WorkUnit}

/-- Units that are equal draw through chains that are built alike. -/
theorem SameUnit.context (h : W.SameUnit u u') (base base' : Chain) (hs : W.Beside s t) :
    W.SameContext base base' (u.context base s.next) (u'.context base' t.next) := by
  refine ⟨?_, h.token⟩
  rw [h.rest]
  refine .link (hs.next 5).1 (suits_of_ne nofun nofun nofun)
    (.link (hs.next 4).1 (suits_of_ne nofun nofun nofun)
      (.branch (hs.next 3).1 ?_ (.link (hs.next 2).1 (suits_of_ne nofun nofun nofun) .base)))
  exact .link (hs.next 1).1 (suits_of_ne nofun nofun nofun)
    (.link (hs.next 0).1 (suits_of_ne nofun nofun nofun) .base)

theorem SameUnit.prepare (h : W.SameUnit u u') (hs : W.Beside s t) :
    W.Beside (u.prepare s) (u'.prepare t) := by
  rw [h.rest]
  exact (((hs.advance 6).hold (hs.next 1).1 _).hold (hs.next 2).1 _).setTrace (hs.next 5).1 _

theorem Beside.clear {n m : Nat} (hs : W.Beside s t)
    (hn : ∀ k, W.instances (n + k) (m + k)) :
    W.Beside (WorkUnit.clear n s) (WorkUnit.clear m t) :=
  ((hs.forget (hn 1)).forget (hn 2)).forget (hn 5)

/-- **Units that are equal bring back the same.** -/
theorem SameUnit.resample (hg : W.SameSampler B g g') (hB : W.Includes B)
    (hbase : W.Bases P g.base g'.base) (h : W.SameUnit u u') {k : Nat}
    (hP : (u.program g.job (g.executions + k) s.next).Along P (u.prepare s))
    (hs : W.Beside s t) :
    W.Agree (u.resample g.job (g.executions + k) s)
      (u'.resample g'.job (g'.executions + k) t) := by
  have halike : (u.program g.job (g.executions + k) s.next).Alike
      (W.SameContext g.base g'.base) W.SameToken B.HasLayer
      (u'.program g'.job (g'.executions + k) t.next) := by
    show Program.Alike _ _ _ _ (g'.model _ _)
    rw [hg.model]
    exact hg.blind k _ _ (hB.relates g.base g'.base) hg.token (h.context _ _ hs)
  have hrun := agree_run hbase hB halike hP (h.prepare hs)
  have hclear := hrun.beside.clear fun k => (hs.next k).1
  have hnodes : u'.free (((u'.program g'.job (g'.executions + k) t.next).run
      (u'.prepare t)).2.trace (t.next + 5))
      = u.free (((u.program g.job (g.executions + k) s.next).run
        (u.prepare s)).2.trace (s.next + 5)) := by
    rw [(hrun.beside.cells (hs.next 5).1).trace, h.rest]
    rfl
  unfold WorkUnit.resample
  dsimp only
  have hsame := hrun.same
  generalize (u.program g.job (g.executions + k) s.next).run (u.prepare s) = out
    at hclear hnodes hsame
  generalize (u'.program g'.job (g'.executions + k) t.next).run (u'.prepare t) = out'
    at hclear hnodes hsame
  obtain ⟨⟨outcome, locals⟩, s'⟩ := out
  obtain ⟨_, t'⟩ := out'
  cases hsame
  cases outcome with
  | value _ => exact ⟨congrArg Except.ok hnodes, hclear⟩
  | failure e => exact ⟨rfl, hclear⟩
  | panic payload => exact ⟨rfl, hclear⟩

end Units

/-! ## Runs -/

namespace Abreast

theorem isOpen (h : W.Abreast i j r r') : r'.isOpen = r.isOpen := by
  unfold Run.isOpen
  rw [h.failure, h.stopped]

theorem others (h : W.Abreast i j r r') (site : String) : r'.others site = r.others site := by
  unfold Run.others
  rw [h.trace]

theorem abort (h : W.Abreast i j r r') (e : Error) :
    W.Abreast i j (r.abort e) (r'.abort e) where
  schedule := congrArg Schedule.drain h.schedule
  trace := h.trace
  root := h.root
  queue := h.queue
  failure := rfl
  stopped := h.stopped
  executions := h.executions
  shared := by
    -- The tokens of what is in flight correspond.
    show W.Beside (r.queue.foldl (fun s u => s.cancel u.token) r.shared)
      (r'.queue.foldl (fun s u => s.cancel u.token) r'.shared)
    have hq := h.queue
    have hs := h.shared
    generalize r.queue = l, r'.queue = l' at hq
    generalize r.shared = s, r'.shared = t at hs
    induction hq generalizing s t with
    | nil => exact hs
    | cons hu _ ih => exact ih _ _ (hs.cancel hu.token)

theorem watch (h : W.Abreast i j r r') (hg : W.SameSampler B g g') :
    W.Abreast i j (g.job.watch r) (g'.job.watch r') := by
  have hstop : r'.shared.isCancelled g'.job.token = r.shared.isCancelled g.job.token :=
    h.shared.isCancelled hg.token
  unfold Job.watch
  rw [h.isOpen, hstop]
  split
  · exact { h with schedule := congrArg Schedule.drain h.schedule, stopped := rfl }
  · exact h

theorem start (h : W.Abreast i j r r') (hg : W.SameSampler B g g') (site : String)
    (d : Distribution) :
    W.Abreast i j (r.start g.job.token site d) (r'.start g'.job.token site d) where
  schedule := congrArg (Schedule.begin · site) h.schedule
  trace := h.trace
  root := congrArg RandomKey.incremented h.root
  queue := by
    have hchild := hg.token.child (h.shared.next 0).2
    refine List.rel_append h.queue (.cons ⟨hchild, ?_⟩ .nil)
    rw [h.root, h.others]
  failure := h.failure
  stopped := h.stopped
  executions := h.executions
  shared := h.shared.advance 1

theorem startUpTo (h : W.Abreast i j r r') (hg : W.SameSampler B g g') (n : Nat) :
    W.Abreast i j (g.job.startUpTo n r) (g'.job.startUpTo n r') := by
  induction n generalizing r r' with
  | zero => exact h
  | succ n ih =>
    have hposterior (site : String) :
        g'.job.posterior site r'.trace = g.job.posterior site r.trace := by
      rw [h.trace]
      exact congrFun (congrFun hg.posterior site) r.trace
    unfold Job.startUpTo
    rw [h.schedule]
    split
    · exact h
    · next site _ =>
      rw [hposterior]
      split
      · exact h.abort _
      · exact ih (h.start hg site _)

/-- **What can be started is started in both.** -/
theorem launched (h : W.Abreast i j r r') (hg : W.SameSampler B g g') :
    W.Abreast i j (g.job.launched r) (g'.job.launched r') := by
  have hwatch := h.watch hg
  unfold Job.launched Job.startAll
  rw [hwatch.isOpen, hwatch.schedule]
  split
  · exact hwatch.startUpTo hg _
  · exact hwatch

theorem settle (h : W.Abreast i j r r') (site : String) (result : Except Error Trace) :
    W.Abreast i j (r.settle site result) (r'.settle site result) := by
  cases result with
  | ok nodes =>
    rw [Run.settle_ok, Run.settle_ok]
    exact { h with
      schedule := by rw [h.schedule]
      trace := by rw [h.trace] }
  | error e =>
    have habandon : W.Abreast i j { r with schedule := r.schedule.abandon site }
        { r' with schedule := r'.schedule.abandon site } :=
      { h with schedule := congrArg (Schedule.abandon · site) h.schedule }
    show W.Abreast i j (if (!e.isCancelled && r.isOpen) = true then _ else _)
      (if (!e.isCancelled && r'.isOpen) = true then _ else _)
    rw [h.isOpen]
    split
    · exact habandon.abort _
    · exact habandon

end Abreast

end Pairing

/-! ## A call -/

/-- What holds of all draws of the units that a run goes on to take back. -/
def Job.Along (P : Chain → Site → Option RandomKey → Shared → Prop) (job : Job σ) :
    Nat → Run → Prop
  | 0, _ => True
  | n + 1, r => ∀ u rest, (job.launched r).queue = u :: rest →
    (u.program job (job.launched r).executions (job.launched r).shared.next).Along P
        (u.prepare (job.launched r).shared)
      ∧ job.Along P n (job.receive u { job.launched r with queue := rest })

variable {P : Chain → Site → Option RandomKey → Shared → Prop} {g g' : Sampler σ}
variable {steps : Nat} {s t : Shared}

/-- These are units of the call. -/
theorem Sampler.Along.job (h : g.Along P steps s) {r : Run} (hr : g.Reaches steps s r)
    (n : Nat) : g.job.Along P n r := by
  induction n generalizing r with
  | zero => trivial
  | succ n ih =>
    intro u rest hq
    have hunit : g.Executes steps s u { g.job.launched r with queue := rest } := .intro hr hq
    have hdraws := h.units hunit
    exact ⟨hdraws, ih (.turn hr hq)⟩

/-- **What holds of all draws of a call**, told along its run. -/
structure Sampler.Follows (P : Chain → Site → Option RandomKey → Shared → Prop)
    (g : Sampler σ) (steps : Nat) (s : Shared) : Prop where
  prior : (g.priorProgram s.next).Along P (g.priorStart s)
  run : ∀ {t s'}, g.Begins s t s' → g.job.Along P (steps + 1) (g.firstRun steps t s')

theorem Sampler.Along.follows (h : g.Along P steps s) : g.Follows P steps s :=
  ⟨h.prior, fun hb => h.job (.first hb) _⟩

namespace Pairing

variable {W : Pairing} {B : Belongings} {r r' : Run}

/-- **Runs stay abreast** as they are driven on. -/
theorem Abreast.drive (hg : W.SameSampler B g g') (hB : W.Includes B)
    (hbase : W.Bases P g.base g'.base) (n : Nat) (hP : g.job.Along P n r)
    (h : W.Abreast g.executions g'.executions r r') :
    W.Abreast g.executions g'.executions (g.job.drive n r) (g'.job.drive n r') := by
  induction n generalizing r r' with
  | zero => exact h
  | succ n ih =>
    have hl := h.launched hg
    cases hq : (g.job.launched r).queue with
    | nil =>
      have hq' : (g'.job.launched r').queue = [] := by
        have hqueue := hl.queue
        rw [hq] at hqueue
        exact List.forall₂_nil_left_iff.mp hqueue
      rw [Job.drive_of_nil hq, Job.drive_of_nil hq']
      exact hl
    | cons u rest =>
      obtain ⟨u', rest', hu, hrest, hq'⟩ := List.forall₂_cons_left_iff.mp (hq ▸ hl.queue)
      rw [Job.drive_of_cons hq, Job.drive_of_cons hq']
      obtain ⟨hunit, hnext⟩ := hP u rest hq
      refine ih hnext ?_
      -- Both units are executed after equally many others.
      obtain ⟨k, hk, hk'⟩ := hl.executions
      rw [hk] at hunit
      have hres := hu.resample hg hB hbase hunit hl.shared
      unfold Job.receive
      dsimp only
      rw [hk, hk', hres.same, hu.rest]
      refine Abreast.settle ?_ u.site _
      exact {
        schedule := hl.schedule, trace := hl.trace, root := hl.root, queue := hrest
        failure := hl.failure, stopped := hl.stopped
        executions := ⟨k + 1, rfl, rfl⟩
        shared := hu.rest ▸ hres.beside }

/-! ## The prior pass -/

/-- **Prior passes that come to the same.** -/
structure SamePrior (W : Pairing) (out out' : Outcome Error Unit × Trace × Shared) : Prop where
  outcome : out'.1 = out.1
  trace : out'.2.1 = out.2.1
  shared : W.Beside out.2.2 out'.2.2

/-- In the prior pass corresponding samplers hand out corresponding contexts. -/
theorem SameSampler.priorContext (hg : W.SameSampler B g g') (hs : W.Beside s t) :
    W.SameContext g.base g'.base (g.priorContext s.next) (g'.priorContext t.next) := by
  refine ⟨?_, hg.token.child (hs.next 3).2⟩
  show W.Twins g.base g'.base (g.priorChain s.next) (g'.priorChain t.next)
  unfold Sampler.priorChain
  rw [hg.observed]
  exact .link (hs.next 2).1 (suits_of_ne nofun nofun nofun)
    (.link (hs.next 1).1 (suits_of_ne nofun nofun nofun)
      (.link (hs.next 0).1 (suits_of_ne nofun nofun nofun) .base))

theorem SameSampler.rootKey (hg : W.SameSampler B g g') : g'.rootKey = g.rootKey := by
  unfold Sampler.rootKey
  rw [hg.settings]

theorem SameSampler.priorStart (hg : W.SameSampler B g g') (hs : W.Beside s t) :
    W.Beside (g.priorStart s) (g'.priorStart t) := by
  unfold Sampler.priorStart
  rw [hg.rootKey]
  exact ((hs.advance 4).hold (hs.next 0).1 _).setTrace (hs.next 2).1 _

/-- **The prior passes of corresponding samplers come to the same.** -/
theorem SameSampler.priorPass (hg : W.SameSampler B g g') (hB : W.Includes B)
    (hbase : W.Bases P g.base g'.base)
    (hP : (g.priorProgram s.next).Along P (g.priorStart s)) (hs : W.Beside s t) :
    W.SamePrior (g.priorPass s) (g'.priorPass t) := by
  have halike : (g.priorProgram s.next).Alike (W.SameContext g.base g'.base) W.SameToken
      B.HasLayer (g'.priorProgram t.next) := by
    unfold Sampler.priorProgram
    rw [hg.model]
    exact hg.blind 0 _ _ (hB.relates g.base g'.base) hg.token (hg.priorContext hs)
  have hrun := agree_run hbase hB halike hP (hg.priorStart hs)
  have houtcome := congrArg Prod.fst hrun.same
  refine ⟨houtcome, (hrun.beside.cells (hs.next 2).1).trace, ?_⟩
  exact (hrun.beside.forget (hs.next 0).1).forget (hs.next 2).1

/-! ## What a call answers -/

/-- **Calls that answer the same** in two worlds, and leave states beside each other if they
answer. -/
structure SamplesAlike (W : Pairing)
    (out out' : Outcome Error (List (String × Json)) × Sampler σ × Shared) : Prop
    extends Sampler.SameOutcome out out' where
  beside : out.1.isValue = true → W.Beside out.2.2 out'.2.2

/-- Calls that come to one result answer the same. -/
theorem samplesAlike_ended {out out' : Sampler σ} (result : Except Error (List (String × Json)))
    (htrace : out'.trace = out.trace) (hcounts : out'.counts = out.counts)
    (hs : W.Beside s t) : W.SamplesAlike (out.ended s result) (out'.ended t result) := by
  cases result with
  | ok values => exact ⟨⟨rfl, fun _ => htrace, fun _ => hcounts⟩, fun _ => hs⟩
  | error e => exact ⟨⟨rfl, nofun, nofun⟩, nofun⟩

/-- A call that comes to an error leaves nothing that could be compared. -/
theorem samplesAlike_failed (out out' : Sampler σ) (e : Error) (s t : Shared) :
    W.SamplesAlike (out.ended s (.error e)) (out'.ended t (.error e)) :=
  ⟨⟨rfl, nofun, nofun⟩, nofun⟩

theorem SameSampler.firstRun (hg : W.SameSampler B g g') (steps : Nat) (trace : Trace)
    (hs : W.Beside s t) : W.Abreast g.executions g'.executions (g.firstRun steps trace s)
      (g'.firstRun steps trace t) where
  schedule := by
    show Schedule.create (g'.latentSites trace) g'.settings.dependencies.graph steps
      = Schedule.create (g.latentSites trace) g.settings.dependencies.graph steps
    unfold Sampler.latentSites
    rw [hg.observed, hg.settings]
  trace := rfl
  root := congrArg RandomKey.incremented hg.rootKey
  queue := .nil
  failure := rfl
  stopped := rfl
  executions := ⟨1, rfl, rfl⟩
  shared := hs

/-- Runs abreast answer the same. -/
theorem Abreast.answer {i j : Nat} (h : W.Abreast i j r r') (hg : W.SameSampler B g g') :
    g'.answer r' = g.answer r := by
  unfold Sampler.answer Run.result Sampler.overwritten
  rw [h.failure, h.stopped, h.trace, h.schedule, hg.observed]

/-- **Corresponding samplers answer the same** in states beside each other. -/
theorem SameSampler.sample (hg : W.SameSampler B g g') (hB : W.Includes B)
    (hbase : W.Bases P g.base g'.base) (hP : g.Follows P steps s) (hs : W.Beside s t) :
    W.SamplesAlike (g.sample steps s) (g'.sample steps t) := by
  have hprior := hg.priorPass hB hbase hP.prior hs
  have hunvisited (trace : Trace) : g'.unvisited trace = g.unvisited trace := by
    unfold Sampler.unvisited
    rw [hg.observed]
  have hbegins : (g.priorPass s).1 = .value () → g.unvisited (g.priorPass s).2.1 = none →
      g.job.Along P (steps + 1) (g.firstRun steps (g.priorPass s).2.1 (g.priorPass s).2.2) :=
    fun hp hv => hP.run ⟨Prod.ext hp rfl, hv⟩
  unfold Sampler.sample
  generalize g.priorPass s = out at hprior hbegins
  generalize g'.priorPass t = out' at hprior
  obtain ⟨outcome, trace, s'⟩ := out
  obtain ⟨outcome', trace', t'⟩ := out'
  obtain ⟨hout, htrace, hs'⟩ := hprior
  change outcome' = outcome at hout
  change trace' = trace at htrace
  subst hout htrace
  dsimp only
  cases outcome' with
  | panic payload => exact ⟨⟨rfl, nofun, nofun⟩, nofun⟩
  | failure e => exact samplesAlike_failed _ _ e _ _
  | value _ =>
    dsimp only
    rw [hunvisited]
    cases hv : g.unvisited trace' with
    | some site => exact samplesAlike_failed _ _ _ _ _
    | none =>
      have hdrive := Abreast.drive hg hB hbase (steps + 1) (hbegins rfl hv)
        (hg.firstRun steps trace' hs')
      show W.SamplesAlike (Sampler.ended _ _ (g.answer _)) (Sampler.ended _ _ (g'.answer _))
      rw [hdrive.answer hg]
      exact samplesAlike_ended _ hdrive.trace (congrArg Schedule.counts hdrive.schedule)
        hdrive.shared

end Pairing

end Resampler
