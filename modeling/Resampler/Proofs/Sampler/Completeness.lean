import Resampler.Proofs.Sampler.Ledger
import Resampler.Proofs.Sampler.Replay

/-!
# An answer is complete

A call that answers has lost nothing on the way. Its answer has every latent
site, also those that came into existence during the call, in the order of
their discovery, each with its value in the trace, and no observed site. All
units that were started have been taken back with success, one by one, and the
counts say how many there were for each site.

Three things can end a run before its budget is used up: a failure, a
cancellation of the sampler, and a unit that says it was cancelled although
nobody has cancelled it, which is dropped without a step. With the first two
there is no answer. The third has to be excluded.
-/

namespace Resampler

variable {σ : Type}

/-- **The sites that a unit discovers**, if they are not known yet: those that it
brought back and that were drawn. -/
def discoveries : Except Error Trace → List String
  | .ok nodes => (nodes.entries.filter fun e => !e.2.observed).map Prod.fst
  | .error _ => []

namespace Run

/-- What joins the schedule joins it in the order in which it is brought back,
without a completed step. -/
structure Joins (l : List (String × TraceNode)) (s s' : Schedule) : Prop where
  tallies : s'.Tallies
  latent : s'.latent
    = ((l.filter fun e => !e.2.observed).map Prod.fst).foldl Schedule.addNew s.latent
  count : ∀ y, s'.count y = s.count y
  total : s'.total = s.total

theorem joins_foldl_join (l : List (String × TraceNode)) {s : Schedule} (h : s.Tallies) :
    Joins l s (l.foldl join s) := by
  induction l generalizing s with
  | nil => exact ⟨h, rfl, fun _ => rfl, rfl⟩
  | cons e rest ih =>
    rw [List.foldl_cons]
    cases ho : e.2.observed with
    | true =>
      have hjoin : join s e = s := by simp [join, ho]
      have joins := ih h
      rw [hjoin]
      exact ⟨joins.tallies, by simpa [ho] using joins.latent, joins.count, joins.total⟩
    | false =>
      have hjoin : join s e = s.addSite e.1 := by simp [join, ho]
      have joins := ih (h.addSite e.1)
      rw [hjoin]
      refine ⟨joins.tallies, ?_, fun y => ?_, ?_⟩
      · rw [joins.latent, s.latent_addSite]
        simp [ho]
      · rw [joins.count, h.count_addSite]
      · rw [joins.total, h.total_addSite]

/-- **A unit that is taken back with success completes one step**, of its own site. -/
theorem count_settle_ok {r : Run} {site : String} (h : r.schedule.Tallies)
    (hin : site ∈ r.schedule.inFlight) (nodes : Trace) (y : String) :
    (r.settle site (.ok nodes)).schedule.count y
      = r.schedule.count y + if site = y then 1 else 0 := by
  have hflight : site ∈ (nodes.entries.foldl join r.schedule).inFlight := by
    rwa [inFlight_foldl_join]
  rw [settle_ok]
  show ((nodes.entries.foldl join r.schedule).finish site).count y = _
  rw [Schedule.count_finish hflight, (joins_foldl_join nodes.entries h).count]

/-- **What a ledger tells of two runs**, the second still open, between which its units
have been taken back: each of them has completed a step of its site, or says that it was
cancelled, and then has left nothing. -/
structure Books (r r' : Run) (log : List (WorkUnit × Except Error Trace)) : Prop where
  dropped : ∀ p ∈ log, ∀ e, p.2 = .error e → e.isCancelled = true
  latent : r'.schedule.latent
    = (log.flatMap fun p => discoveries p.2).foldl Schedule.addNew r.schedule.latent
  count : ∀ y, r'.schedule.count y
    = r.schedule.count y + log.countP fun p => p.2.isOk && decide (p.1.site = y)
  total : r'.schedule.total = r.schedule.total + log.countP fun p => p.2.isOk

/-- Where nothing is taken back, the counts stay. -/
theorem Books.none {r r' : Run} (hl : r'.schedule.latent = r.schedule.latent)
    (hc : r'.schedule.counts = r.schedule.counts) : r.Books r' [] := by
  refine ⟨(fun _ hp => nomatch hp), hl, fun y => ?_, ?_⟩
  · unfold Schedule.count
    rw [hc]
    rfl
  · unfold Schedule.total
    rw [hc]
    rfl

theorem Books.append {r r' r'' : Run} {log log' : List (WorkUnit × Except Error Trace)}
    (h : r.Books r' log) (h' : r'.Books r'' log') : r.Books r'' (log ++ log') := by
  refine ⟨fun p hp => ?_, ?_, fun y => ?_, ?_⟩
  · exact (List.mem_append.mp hp).elim (h.dropped p) (h'.dropped p)
  · rw [h'.latent, h.latent, List.flatMap_append, List.foldl_append]
  · rw [h'.count, h.count, List.countP_append, Nat.add_assoc]
  · rw [h'.total, h.total, List.countP_append, Nat.add_assoc]

/-- **What a ledger tells of two runs** between which its units have been taken
back with success. -/
structure Accounts (r r' : Run) (log : List (WorkUnit × Except Error Trace)) : Prop where
  returned : ∀ p ∈ log, ∃ nodes, p.2 = .ok nodes
  latent : r'.schedule.latent
    = (log.flatMap fun p => discoveries p.2).foldl Schedule.addNew r.schedule.latent
  count : ∀ y, r'.schedule.count y = r.schedule.count y + log.countP fun p => p.1.site = y
  total : r'.schedule.total = r.schedule.total + log.length

/-- Where no unit says that it was cancelled, all have succeeded. -/
theorem Books.accounts {r r' : Run} {log : List (WorkUnit × Except Error Trace)}
    (h : r.Books r' log)
    (hc : ∀ p ∈ log, ∀ e, p.2 = .error e → e.isCancelled = false) : r.Accounts r' log := by
  have hok : ∀ p ∈ log, p.2.isOk = true := by
    intro p hp
    cases hres : p.2 with
    | ok nodes => rfl
    | error e => exact absurd ((h.dropped p hp e hres).symm.trans (hc p hp e hres)) nofun
  refine ⟨fun p hp => ?_, h.latent, fun y => ?_, ?_⟩
  · cases hres : p.2 with
    | ok nodes => exact ⟨nodes, rfl⟩
    | error e => exact absurd (hres ▸ hok p hp) nofun
  · rw [h.count y]
    refine congrArg _ (List.countP_congr fun p hp => ?_)
    rw [hok p hp, Bool.true_and]
  · rw [h.total, List.countP_eq_length.mpr hok]

end Run

namespace Job

variable {job : Job σ} {g : DependencyGraph} {r : Run}

/-- Starting units adds no site, and completes no step. -/
theorem schedule_launched (job : Job σ) (r : Run) :
    (job.launched r).schedule.latent = r.schedule.latent
      ∧ (job.launched r).schedule.counts = r.schedule.counts := by
  have h : job.Lasts fun r' => r'.schedule.latent = r.schedule.latent
      ∧ r'.schedule.counts = r.schedule.counts :=
    ⟨id, fun h _ _ => h, fun h _ _ => h⟩
  exact h.launched ⟨rfl, rfl⟩

theorem books_launched (job : Job σ) (r : Run) : r.Books (job.launched r) [] :=
  .none (job.schedule_launched r).1 (job.schedule_launched r).2

/-- **A unit that is taken back in a run that stays open** succeeded, and completes a
step of its site, or it says that it was cancelled. -/
theorem books_receive {u : WorkUnit} {rest : List WorkUnit} (h : r.IsAligned g)
    (hq : r.queue = u :: rest)
    (ho : (job.receive u { r with queue := rest }).isOpen = true) :
    r.Books (job.receive u { r with queue := rest })
      [(u, (u.resample job r.executions r.shared).1)] := by
  have hflight : u.site ∈ r.schedule.inFlight := by
    rw [h.flight, hq]
    exact List.mem_cons_self
  have hsettle : job.receive u { r with queue := rest } = Run.settle { r with
      queue := rest, executions := r.executions + 1
      shared := (u.resample job r.executions r.shared).2 } u.site
        (u.resample job r.executions r.shared).1 := rfl
  cases hres : (u.resample job r.executions r.shared).1 with
  | error e =>
    have hcancelled := (of_isOpen_receive ho).2 e hres
    rw [hsettle, hres, Run.settle_of_drops (.inl hcancelled)]
    refine ⟨fun p hp e' he => ?_, rfl, fun _ => rfl, rfl⟩
    rw [List.mem_singleton.mp hp] at he
    cases he
    exact hcancelled
  | ok nodes =>
    have joins := Run.joins_foldl_join nodes.entries h.tallies
    have hin : u.site ∈ (nodes.entries.foldl Run.join r.schedule).inFlight := by
      rwa [Run.inFlight_foldl_join]
    rw [hsettle, hres]
    refine ⟨fun p hp e he => ?_, ?_, fun y => ?_, ?_⟩
    · rw [List.mem_singleton.mp hp] at he
      cases he
    · rw [Run.settle_ok]
      show ((nodes.entries.foldl Run.join r.schedule).finish u.site).latent = _
      rw [Schedule.latent_finish, joins.latent]
      simp [discoveries]
    · rw [Run.count_settle_ok (by exact h.tallies) (by exact hflight)]
      simp [List.countP_cons, Except.isOk, Except.toBool]
    · rw [Run.settle_ok]
      show ((nodes.entries.foldl Run.join r.schedule).finish u.site).total = _
      rw [Schedule.total_finish hin, joins.total]
      rfl

/-- **The ledger accounts for a run that is still open in the end.** -/
theorem books_drive {n : Nat} (source : GraphSource) (h : r.IsAligned source.graph)
    (ho : (job.drive n r).isOpen = true) : r.Books (job.drive n r) (job.ledger n r) := by
  induction n generalizing r with
  | zero => exact .none rfl rfl
  | succ n ih =>
    have hlaunched := (job.isInvariant_aligned source).launched h
    cases hq : (job.launched r).queue with
    | nil =>
      rw [drive_of_nil hq, ledger_of_nil hq]
      exact job.books_launched r
    | cons u rest =>
      rw [drive_of_cons hq] at ho ⊢
      rw [ledger_of_cons hq]
      have hreceive := books_receive hlaunched hq (isOpen_of_drive ho)
      have hrest := ih ((job.isInvariant_aligned source).takes hlaunched hq) ho
      exact ((job.books_launched r).append hreceive).append hrest

/-- **The ledger accounts for all steps**, if no unit says that it was cancelled. -/
theorem accounts_drive {n : Nat} (source : GraphSource) (h : r.IsAligned source.graph)
    (ho : (job.drive n r).isOpen = true)
    (hc : ∀ p ∈ job.ledger n r, ∀ e, p.2 = .error e → e.isCancelled = false) :
    r.Accounts (job.drive n r) (job.ledger n r) :=
  (books_drive source h ho).accounts hc

end Job

/-! ## Observed sites are shielded -/

/-- **A run whose latent sites are not observed**: what is observed is in the trace,
and so it is held fixed in every unit. -/
structure Run.Shields (observed : OrderedMap String Json) (r : Run) : Prop where
  visited : ∀ y, observed.contains y = true → r.trace.contains y = true
  latent : ∀ y ∈ r.schedule.latent, observed.contains y = false
  fixed : ∀ u ∈ r.queue, ∀ y, observed.contains y = true → u.fixed.contains y = true

theorem Job.isInvariant_shields (job : Job σ) (observed : OrderedMap String Json) :
    job.IsInvariant (Run.Shields observed) where
  stops h := ⟨h.visited, h.latent, h.fixed⟩
  starts {r site d} h hw _ := by
    refine ⟨h.visited, h.latent, fun u hu y hy => ?_⟩
    rcases List.mem_append.mp hu with hu | hu
    · exact h.fixed u hu y hy
    · rw [List.mem_singleton.mp hu]
      -- The site itself is latent, and so it is not the observed one.
      refine Run.contains_others (fun he => ?_) (h.visited y hy)
      rw [he, h.latent site (Schedule.findWork_eq_some hw).1] at hy
      cases hy
  aborts {r site e} h _ _ := by
    obtain ⟨c, hc⟩ := Run.abort_eq r (.siteFailed site e)
    rw [hc]
    exact ⟨h.visited, h.latent, h.fixed⟩
  takes {r u rest} h hq := by
    have got := job.received_receive u { r with queue := rest }
    refine ⟨fun y hy => ?_, fun y hy => ?_, fun u' hu' => ?_⟩
    · rw [got.trace]
      exact Run.contains_traceAfter (h.visited y hy) _
    · rcases got.latent y hy with hy | ⟨nodes, hres, hc⟩
      · exact h.latent y hy
      · refine Bool.eq_false_iff.mpr fun ho => ?_
        have hfixed := h.fixed u (hq ▸ List.mem_cons_self) y ho
        rw [(WorkUnit.resample_eq_ok hres).2, WorkUnit.free, OrderedMap.contains,
          OrderedMap.get?_filterKeys, hfixed] at hc
        cases hc
    · rw [got.queue] at hu'
      exact h.fixed u' (hq ▸ List.mem_cons_of_mem _ hu')

namespace Sampler

variable {g : Sampler σ} {steps : Nat} {s : Shared}

theorem shields_firstRun {t : Trace} {s' : Shared} (h : g.Begins s t s') :
    (g.firstRun steps t s').Shields g.observed := by
  refine ⟨fun y hy => ?_, fun y hy => ?_, fun u hu => nomatch hu⟩
  · have hc := List.find?_eq_none.mp h.visited y (OrderedMap.mem_keys_iff.mpr hy)
    rwa [Bool.not_eq_true, Bool.not_eq_false'] at hc
  · exact (mem_latentSites (Schedule.mem_latent_create hy)).2

/-! ## The call -/

/-- The run in which a call ends. -/
def finalRun (g : Sampler σ) (steps : Nat) (s : Shared) : Run :=
  g.job.drive (steps + 1) (g.stage steps s 0)

theorem lastRun_eq_finalRun {t : Trace} {s' : Shared} (h : g.Begins s t s') :
    g.lastRun steps t s' = g.finalRun steps s := by
  simp [lastRun, finalRun, stage, h.passed]

/-- **The units that a call starts**, in the order of their start. -/
def started (g : Sampler σ) (steps : Nat) (s : Shared) : List WorkUnit :=
  g.job.started (steps + 1) (g.stage steps s 0)

/-- **The units that a call takes back**, each with what it came to. -/
def ledger (g : Sampler σ) (steps : Nat) (s : Shared) :
    List (WorkUnit × Except Error Trace) :=
  g.job.ledger (steps + 1) (g.stage steps s 0)

/-- From every run that a call reaches, the rest of its ledger follows. -/
theorem Reaches.exists_ledger {r : Run} (h : g.Reaches steps s r) :
    ∃ log n, r.schedule.pending + r.queue.length < n
      ∧ g.ledger steps s = log ++ g.job.ledger n r := by
  induction h with
  | first begins =>
    refine ⟨[], steps + 1, Nat.lt_succ_self _, ?_⟩
    rw [List.nil_append, ledger, stage, begins.passed]
  | @turn r u rest before front ih =>
    obtain ⟨log, n, hn, hlog⟩ := ih
    obtain ⟨m, rfl⟩ : ∃ m, n = m + 1 := ⟨n - 1, by omega⟩
    have hless := Job.todo_receive_lt front
    rw [Job.ledger_of_cons front] at hlog
    exact ⟨_, m, by omega, hlog.trans (List.append_cons ..)⟩

/-- **Every unit that a call executes is in its ledger**, with what it came to. -/
theorem Executes.mem_ledger {u : WorkUnit} {r : Run} (h : g.Executes steps s u r) :
    (u, (u.resample g.job r.executions r.shared).1) ∈ g.ledger steps s := by
  cases h with
  | @intro r₀ _ rest before front =>
    obtain ⟨log, n, hn, hlog⟩ := before.exists_ledger
    obtain ⟨m, rfl⟩ : ∃ m, n = m + 1 := ⟨n - 1, by omega⟩
    rw [hlog, Job.ledger_of_cons front]
    exact List.mem_append_right _ List.mem_cons_self

/-- **A call that answers** has begun to sample, and looks up the latent sites of
its last run in the trace of that run, which it leaves behind with the counts. -/
structure Answers (g : Sampler σ) (steps : Nat) (s : Shared)
    (answer : List (String × Json)) : Prop where
  begins : g.Begins s (g.priorPass s).2.1 (g.priorPass s).2.2
  opened : (g.finalRun steps s).isOpen = true
  answer : answer
    = valuesOf (g.finalRun steps s).trace (g.finalRun steps s).schedule.latent
  trace : (g.sample steps s).2.1.trace = (g.finalRun steps s).trace
  counts : (g.sample steps s).2.1.counts = (g.finalRun steps s).schedule.counts

/-- A run has an answer only if it is open. -/
theorem answer_eq_ok {r : Run} {answer : List (String × Json)} (h : g.answer r = .ok answer) :
    r.isOpen = true ∧ answer = valuesOf r.trace r.schedule.latent := by
  unfold Sampler.answer Run.result at h
  cases hf : r.failure with
  | some e =>
    rw [hf] at h
    cases h
  | none =>
    cases hs : r.stopped with
    | true =>
      rw [hf, hs] at h
      cases h
    | false =>
      rw [hf, hs] at h
      cases ho : g.overwritten r.trace with
      | some site =>
        rw [ho] at h
        cases h
      | none =>
        rw [ho] at h
        cases h
        simp [Run.isOpen, hf, hs]

theorem conclude_counts (g : Sampler σ) (s : Shared)
    (result : Except Error (List (String × Json))) :
    (g.conclude s result).1.counts = g.counts := by
  unfold conclude
  split
  · rfl
  · split <;> rfl

theorem answers_of_sample {answer : List (String × Json)}
    (h : (g.sample steps s).1 = .value answer) : g.Answers steps s answer := by
  rcases hp : g.priorPass s with ⟨outcome, t, s'⟩
  cases outcome with
  | panic payload => simp [sample, hp] at h
  | failure e => simp [sample, hp, ended, Outcome.ofExcept] at h
  | value a =>
    cases hv : g.unvisited t with
    | some site => simp [sample, hp, hv, ended, Outcome.ofExcept] at h
    | none =>
      have hb : g.Begins s t s' := ⟨hp, hv⟩
      have hrun : g.lastRun steps t s' = g.finalRun steps s := lastRun_eq_finalRun hb
      rw [sample_of_begins hb] at h
      have hanswer : g.answer (g.lastRun steps t s') = .ok answer := by
        change Outcome.ofExcept (g.answer (g.lastRun steps t s')) = .value answer at h
        cases ha : g.answer (g.lastRun steps t s') with
        | error e =>
          rw [ha] at h
          cases h
        | ok a =>
          rw [ha] at h
          cases h
          rfl
      obtain ⟨hopen, hvalues⟩ := answer_eq_ok hanswer
      rw [hrun] at hopen hvalues
      refine ⟨by rwa [hp], hopen, hvalues, ?_, ?_⟩
      · rw [sample_of_begins hb, ← hrun]
        exact conclude_trace _ _ _
      · rw [sample_of_begins hb, ← hrun]
        exact conclude_counts _ _ _

/-- **A complete answer**, of a call with a given budget. -/
structure IsComplete (g : Sampler σ) (steps : Nat) (s : Shared)
    (answer : List (String × Json)) : Prop where
  /-- The answer has the latent sites, and misses none. -/
  keys : answer.map Prod.fst = (g.finalRun steps s).schedule.latent
  /-- They come in the order of their discovery: first those of the prior pass,
  then those that units brought back. -/
  discovered : answer.map Prod.fst
    = (g.latentSites (g.priorPass s).2.1
        ++ (g.ledger steps s).flatMap fun p => discoveries p.2).foldl Schedule.addNew []
  /-- No observed site is among them. -/
  unobserved : ∀ y ∈ answer.map Prod.fst, g.observed.contains y = false
  /-- Each has the value that the trace holds. -/
  values : ∀ p ∈ answer, ∃ node,
    (g.sample steps s).2.1.trace.get? p.1 = some node ∧ node.value = p.2
  /-- The counts are for the same sites in the same order. -/
  counted : (g.sample steps s).2.1.counts.keys = answer.map Prod.fst
  /-- Nothing is left in flight. -/
  idle : (g.finalRun steps s).queue = [] ∧ (g.finalRun steps s).schedule.inFlight = []
  /-- Every unit that was started was taken back once, in its turn. -/
  handled : (g.ledger steps s).map Prod.fst = g.started steps s
  /-- No two units were the same. -/
  distinct : ((g.started steps s).map WorkUnit.key).Nodup
  /-- All of them succeeded. -/
  succeeded : ∀ p ∈ g.ledger steps s, ∃ nodes, p.2 = .ok nodes
  /-- The count of a site is the number of its units. -/
  count : ∀ y, ((g.sample steps s).2.1.counts.get? y).getD 0
    = (g.ledger steps s).countP fun p => p.1.site = y
  /-- If there is a latent site, then the counts add up to the budget. -/
  total : answer ≠ [] → (g.sample steps s).2.1.counts.values.sum = steps

/-- Looking up sites that a trace has misses none. -/
theorem map_fst_valuesOf {t : Trace} {sites : List String}
    (h : ∀ y ∈ sites, t.contains y = true) : (valuesOf t sites).map Prod.fst = sites := by
  induction sites with
  | nil => rfl
  | cons y rest ih =>
    obtain ⟨node, hn⟩ := OrderedMap.contains_iff.mp (h y List.mem_cons_self)
    have hrest := ih fun z hz => h z (List.mem_cons_of_mem _ hz)
    unfold valuesOf at hrest ⊢
    rw [List.filterMap_cons, hn, Option.map_some]
    exact congrArg (y :: ·) hrest

theorem mem_valuesOf {t : Trace} {sites : List String} {p : String × Json}
    (h : p ∈ valuesOf t sites) : ∃ node, t.get? p.1 = some node ∧ node.value = p.2 := by
  obtain ⟨y, -, hy⟩ := List.mem_filterMap.mp h
  obtain ⟨node, hn, rfl⟩ := Option.map_eq_some_iff.mp hy
  exact ⟨node, hn, rfl⟩

theorem isAligned_finalRun (g : Sampler σ) (steps : Nat) (s : Shared) :
    (g.finalRun steps s).IsAligned g.settings.dependencies.graph :=
  (g.job.isInvariant_aligned (.declared g.settings.dependencies)).drive _
    (g.isAligned_firstRun steps _ _)

/-- A call ends with no unit left, and if its run is open none can be started. -/
theorem finalRun_ends (g : Sampler σ) (steps : Nat) (s : Shared) :
    (g.finalRun steps s).queue = []
      ∧ ((g.finalRun steps s).isOpen = true →
        (g.finalRun steps s).schedule.findWork = none) :=
  Job.drive_ends (Nat.lt_succ_self steps)

/-- A call leaves nothing in flight. -/
theorem inFlight_finalRun (g : Sampler σ) (steps : Nat) (s : Shared) :
    (g.finalRun steps s).schedule.inFlight = [] := by
  rw [(g.isAligned_finalRun steps s).flight, (g.finalRun_ends steps s).1]
  rfl

/-- A call takes back all units that it starts, in the same order. -/
theorem map_fst_ledger (g : Sampler σ) (steps : Nat) (s : Shared) :
    (g.ledger steps s).map Prod.fst = g.started steps s := by
  have hall := g.job.queue_append_started (steps + 1) (g.stage steps s 0)
  rw [show g.job.drive (steps + 1) (g.stage steps s 0) = g.finalRun steps s from rfl,
    (g.finalRun_ends steps s).1, List.append_nil] at hall
  exact hall.symm

/-- The answer misses no latent site. -/
theorem Answers.keys {answer : List (String × Json)} (got : g.Answers steps s answer) :
    answer.map Prod.fst = (g.finalRun steps s).schedule.latent := by
  rw [got.answer, map_fst_valuesOf (g.isAligned_finalRun steps s).known]

/-- **The budget is spent** if there is a latent site to spend it on. -/
theorem Answers.length_started {answer : List (String × Json)}
    (got : g.Answers steps s answer) (hsome : answer ≠ []) :
    (g.started steps s).length = steps := by
  have hsteps : (g.finalRun steps s).schedule.pending + (g.started steps s).length
      = steps := Job.pending_drive got.opened
  have hnone := (g.finalRun_ends steps s).2 got.opened
  rcases Schedule.findWork_eq_none hnone (g.inFlight_finalRun steps s) with hspent | hlatent
  · rwa [hspent, Nat.zero_add] at hsteps
  · have hkeys := got.keys
    rw [hlatent, List.map_eq_nil_iff] at hkeys
    exact absurd hkeys hsome

/-- **An answer is complete**, over any chain, with any dependencies and any local
posterior, if no unit says that it was cancelled. -/
theorem isComplete_of_sample (g : Sampler σ) (steps : Nat) (s : Shared)
    (hc : ∀ p ∈ g.ledger steps s, ∀ e, p.2 = .error e → e.isCancelled = false)
    {answer : List (String × Json)} (h : (g.sample steps s).1 = .value answer) :
    g.IsComplete steps s answer := by
  have got := answers_of_sample h
  have haligned := g.isAligned_finalRun steps s
  have hshields : (g.finalRun steps s).Shields g.observed :=
    (g.job.isInvariant_shields g.observed).drive _ (shields_firstRun got.begins)
  have haccounts : (g.stage steps s 0).Accounts (g.finalRun steps s) (g.ledger steps s) :=
    Job.accounts_drive (.declared g.settings.dependencies) (g.isAligned_firstRun steps _ _)
      got.opened hc
  refine ⟨got.keys, ?_, ?_, ?_, ?_, ⟨(g.finalRun_ends steps s).1, g.inFlight_finalRun steps s⟩,
    g.map_fst_ledger steps s, ?_, haccounts.returned, fun y => ?_, fun hsome => ?_⟩
  · rw [got.keys, haccounts.latent, List.foldl_append]
    rfl
  · rw [got.keys]
    exact hshields.latent
  · intro p hp
    rw [got.answer] at hp
    rw [got.trace]
    exact mem_valuesOf hp
  · rw [got.counts, got.keys]
    exact haligned.tallies.counts
  · exact g.job.nodup_key_started _ (i := g.settings.seed + 1) rfl
  · rw [got.counts]
    refine (haccounts.count y).trans ?_
    rw [show (g.stage steps s 0).schedule.count y = 0 from Schedule.count_create _ _ _ y,
      Nat.zero_add]
  · rw [got.counts]
    refine haccounts.total.trans ?_
    rw [show (g.stage steps s 0).schedule.total = 0 from Schedule.total_create _ _ _,
      Nat.zero_add, ← List.length_map Prod.fst, g.map_fst_ledger steps s,
      got.length_started hsome]

/-- Whether a unit reported anything but a cancellation. -/
def isUncancelled : Except Error Trace → Bool
  | .ok _ => true
  | .error e => !e.isCancelled

theorem isComplete_sprout : ∃ answer, (sprout.sample 3 .small).1 = .value answer
    ∧ sprout.IsComplete 3 .small answer := by
  have hvalue : ((sprout.sample 3 .small).1).isValue = true := by decide +kernel
  have hall : ((sprout.ledger 3 .small).map Prod.snd).all isUncancelled = true := by
    decide +kernel
  obtain ⟨answer, h⟩ := Outcome.isValue_iff.mp hvalue
  refine ⟨answer, h, isComplete_of_sample sprout 3 .small (fun p hp e he => ?_) h⟩
  have hp' := List.all_eq_true.mp hall p.2 (List.mem_map_of_mem hp)
  rw [he] at hp'
  simpa [isUncancelled] using hp'

/-- The second site is discovered by the first unit, and gets its share of the
steps. -/
example : ((sprout.sample 3 .small).1.map fun l => l.map Prod.fst) = .value ["x", "y"]
    ∧ (sprout.sample 3 .small).2.1.counts.entries = [("x", 1), ("y", 2)] := by
  decide +kernel

end Sampler

end Resampler
