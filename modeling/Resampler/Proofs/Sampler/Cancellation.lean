import Resampler.Proofs.Program.Tokens
import Resampler.Proofs.Sampler.Reports
import Resampler.Proofs.Sampler.Steps

/-!
# What the cancellation of a sampler does to its call

The token of a sampler may be cancelled before a call, in the prior pass, or in any unit.
From then on every context that the call has handed to its program refuses to draw, and
nothing is started any more; what is in flight is taken back, one unit after the other.
Then the call fails. It is told as cancelled, unless something has failed in it that is no
cancellation (`Sampler.Faults`): the prior pass, a local posterior or a unit. All of this is
`Sampler.StopsCleanly`.

Only a panic in the prior pass goes through to the caller, as it would without a
cancellation.
-/

namespace Resampler

variable {σ : Type}

/-! ## Tokens while a run is driven -/

namespace Run

variable {r : Run} {id : Nat}

/-- **An aborted run** has cancelled what is in flight. -/
theorem mem_cancelled_abort (r : Run) (e : Error) : id ∈ (r.abort e).shared.cancelled
    ↔ id ∈ r.shared.cancelled ∨ ∃ u ∈ r.queue, u.token.id = id := by
  show id ∈ (r.queue.foldl (fun s u => s.cancel u.token) r.shared).cancelled ↔ _
  generalize r.queue = l, r.shared = s
  induction l generalizing s with
  | nil => simp
  | cons u rest ih =>
    rw [List.foldl_cons, ih (s.cancel u.token)]
    show id ∈ u.token.id :: s.cancelled ∨ _ ↔ _
    simp only [List.mem_cons, exists_eq_or_imp]
    rw [or_assoc, or_left_comm, @eq_comm _ id]

/-- Taking a unit back cancels nothing but what is in flight. -/
theorem mem_cancelled_settle {site : String} {result : Except Error Trace}
    (h : id ∈ (r.settle site result).shared.cancelled) :
    id ∈ r.shared.cancelled ∨ ∃ u ∈ r.queue, u.token.id = id := by
  cases result with
  | ok nodes =>
    rw [settle_ok] at h
    exact .inl h
  | error e =>
    rcases r.settle_error site e with he | he
    · rw [he] at h
      exact .inl h
    · rw [he] at h
      exact (mem_cancelled_abort { r with schedule := r.schedule.abandon site }
        (.siteFailed site e)).mp h

theorem mem_cancelled_settle_of_mem (h : id ∈ r.shared.cancelled) (site : String)
    (result : Except Error Trace) : id ∈ (r.settle site result).shared.cancelled := by
  cases result with
  | ok nodes =>
    rw [settle_ok]
    exact h
  | error e =>
    rcases r.settle_error site e with he | he
    · rw [he]
      exact h
    · rw [he]
      exact (mem_cancelled_abort { r with schedule := r.schedule.abandon site }
        (.siteFailed site e)).mpr (.inl h)

end Run

namespace Job

variable {job : Job σ} {r : Run}

/-- **A token that is cancelled stays so** while a run is driven. -/
theorem isInvariant_cancelled (job : Job σ) (τ : Token) :
    job.IsInvariant fun r => r.shared.isCancelled τ = true where
  stops h := h
  starts h _ _ := h
  aborts h _ _ :=
    Token.isCancelled_of_subset (fun _ hid => (Run.mem_cancelled_abort _ _).mpr (.inl hid)) h
  takes {r u rest} h _ := by
    have hrun := Program.isCancelled_run (u.program job r.executions r.shared.next)
      (s := u.prepare r.shared) h
    refine Token.isCancelled_of_subset (fun id hid => Run.mem_cancelled_settle_of_mem ?_ _ _) hrun
    show id ∈ (u.resample job r.executions r.shared).2.cancelled
    rw [WorkUnit.resample_snd]
    exact hid

/-- **In a cancelled run nothing is started.** -/
theorem queue_launched_of_cancelled (job : Job σ) (h : r.shared.isCancelled job.token = true) :
    (job.launched r).queue = r.queue := by
  cases ho : r.isOpen with
  | false => rw [launched_of_closed ho]
  | true =>
    rw [launched_of_cancelled ho h]
    rfl

/-- **A run that is open once everything has been started** has not been cancelled. -/
theorem isCancelled_of_isOpen_launched (h : (job.launched r).isOpen = true) :
    (job.launched r).shared.isCancelled job.token = false := by
  have hsame : job.Lasts fun r' => r'.isOpen = true → r'.shared.cancelled = r.shared.cancelled :=
    { stops := fun _ ho => absurd ho (by simp [Run.isOpen])
      starts := fun h _ _ => h
      aborts := fun _ _ _ ho => absurd ho (Bool.eq_false_iff.mp (Run.isOpen_abort _ _)) }
  have hopen : r.isOpen = true := by
    refine Bool.not_eq_false _ ▸ fun hc => ?_
    rw [job.isInvariant_closed.launched hc] at h
    cases h
  have hlive : r.shared.isCancelled job.token = false := by
    refine Bool.eq_false_iff.mpr fun hc => ?_
    rw [launched_of_cancelled hopen hc, Run.isOpen_stop] at h
    cases h
  unfold Shared.isCancelled at hlive ⊢
  rw [hsame.launched (fun _ => rfl) h]
  exact hlive

/-- **A run that is open in the end** has not been cancelled. -/
theorem isCancelled_of_isOpen_drive (job : Job σ) {n : Nat} {r : Run}
    (hn : r.schedule.pending + r.queue.length < n) (h : (job.drive n r).isOpen = true) :
    (job.drive n r).shared.isCancelled job.token = false := by
  induction n generalizing r with
  | zero => exact absurd hn (Nat.not_lt_zero _)
  | succ n ih =>
    cases hq : (job.launched r).queue with
    | nil =>
      rw [drive_of_nil hq] at h ⊢
      exact isCancelled_of_isOpen_launched h
    | cons u rest =>
      rw [drive_of_cons hq] at h ⊢
      exact ih (Nat.lt_of_lt_of_le (todo_receive_lt hq) (Nat.le_of_lt_succ hn)) h

/-- **The units of a run have tokens below that of the sampler.** -/
theorem isInvariant_children (job : Job σ) :
    job.IsInvariant fun r => ∀ u ∈ r.queue, ∃ id, u.token = job.token.child id where
  stops h := h
  starts {r site d} h _ _ u hu := by
    rcases List.mem_append.mp hu with hu | hu
    · exact h u hu
    · rw [List.mem_singleton.mp hu]
      exact ⟨_, rfl⟩
  aborts h _ _ := h
  takes {r u rest} h hq := by
    rw [queue_receive]
    exact fun u' hu' => h u' (hq ▸ List.mem_cons_of_mem u hu')

end Job

namespace Sampler

variable {g : Sampler σ} {steps : Nat} {s : Shared}

/-! ## What the program is handed -/

/-- **The contexts that a call hands to its program**: in the prior pass, in every unit, and
in the scopes that are opened on those. -/
inductive Hands (g : Sampler σ) (steps : Nat) (s : Shared) : Context → Prop where
  | prior : Hands g steps s (g.priorContext s.next)
  | unit {u : WorkUnit} {r : Run} (executed : g.Executes steps s u r) :
    Hands g steps s (u.context g.base r.shared.next)
  | inside {c : Context} (outer : Hands g steps s c) (layer : Layer) :
    Hands g steps s (c.inside layer)

/-- Their tokens descend from that of the sampler. -/
theorem Hands.lineage {c : Context} (h : g.Hands steps s c) :
    ∀ id ∈ g.token.lineage, id ∈ c.token.lineage := by
  induction h with
  | prior => exact fun _ => List.mem_cons_of_mem _
  | @unit u r executed =>
    obtain ⟨id, hu⟩ : ∃ id, u.token = g.token.child id := by
      cases executed with
      | intro before front =>
        have hqueue := g.job.isInvariant_children.launched
          (before.keeps g.job.isInvariant_children fun _ => nofun)
        exact hqueue u (front ▸ List.mem_cons_self)
    show ∀ id ∈ g.token.lineage, id ∈ u.token.lineage
    rw [hu]
    exact fun _ => List.mem_cons_of_mem _
  | inside _ _ ih => exact ih

/-- **What a call hands out refuses to draw** once the sampler is cancelled. -/
theorem Hands.draw_of_cancelled {c : Context} (h : g.Hands steps s c) (site : Site) {t : Shared}
    (ht : t.isCancelled g.token = true) : c.draw site t = (.failure .cancelled, t) :=
  if_pos (Token.isCancelled_of_lineage h.lineage ht)

/-! ## What else can fail -/

/-- **What fails a call but a cancellation of its sampler**: the prior pass, which also fails
for an observed site that it has not visited, a local posterior, or a unit. -/
inductive Faults (g : Sampler σ) (steps : Nat) (s : Shared) : Error → Prop where
  | prior {e : Error} (failed : (g.priorPass s).1 = .failure e) : Faults g steps s e
  | unvisited {t : Trace} {s' : Shared} {site : String}
    (passed : g.priorPass s = (.value (), t, s')) (missing : g.unvisited t = some site) :
    Faults g steps s (.unobservedSite site)
  | posterior {r : Run} {site : String} {e : Error} (reached : g.Reaches steps s r)
    (failed : g.posterior site r.trace = .error e) : Faults g steps s (.siteFailed site e)
  | unit {u : WorkUnit} {r : Run} {e : Error} (executed : g.Executes steps s u r)
    (failed : (u.resample g.job r.executions r.shared).1 = .error e) :
    Faults g steps s (.siteFailed u.site e)

/-- A run fails while units are started only because of a local posterior. -/
theorem Reaches.faults_launched {r : Run} (h : g.Reaches steps s r)
    (hr : ∀ e, r.failure = some e → g.Faults steps s e) :
    ∀ e, (g.job.launched r).failure = some e → g.Faults steps s e := by
  have hlasts : g.job.Lasts fun r' => r'.trace = r.trace
      ∧ ∀ e, r'.failure = some e → g.Faults steps s e :=
    { stops := fun h => h
      starts := fun h _ _ => h
      aborts := fun {r' site e} hr' _ he => by
        refine ⟨hr'.1, fun e' he' => ?_⟩
        cases he'
        exact .posterior h (hr'.1 ▸ he) }
  exact (hlasts.launched ⟨rfl, hr⟩).2

theorem Reaches.faults {r : Run} (h : g.Reaches steps s r) :
    ∀ e, r.failure = some e → g.Faults steps s e := by
  induction h with
  | first begins => exact nofun
  | @turn r u rest before front ih =>
    intro e he
    rcases (g.job.received_receive u _).failure e he with he | ⟨e', hres, rfl⟩
    · exact before.faults_launched ih e he
    · exact .unit (.intro before front) hres

theorem lastRun_faults {t : Trace} {s' : Shared} (h : g.Begins s t s') {e : Error}
    (he : (g.lastRun steps t s').failure = some e) : g.Faults steps s e := by
  obtain ⟨r, hr, hd⟩ := exists_reaches_lastRun (n := steps) h
  rcases hd with hd | hd
  · exact hr.faults e (hd ▸ he)
  · exact hr.faults_launched hr.faults e (hd ▸ he)

/-! ## How a cancelled call ends -/

theorem conclude_cancelled (g : Sampler σ) (s : Shared)
    (result : Except Error (List (String × Json))) :
    (g.conclude s result).2.cancelled = s.cancelled := by
  unfold conclude
  split
  · rfl
  · split <;> rfl

/-- **A call that fails with an error**: it is told as cancelled if the error is a
cancellation, and else something else has failed. -/
structure FailsWith (g : Sampler σ) (steps : Nat) (s : Shared) (e : Error) : Prop where
  answer : (g.sample steps s).1 = .failure e
  phase : e.isCancelled = true ∧ (g.sample steps s).2.1.phase = .cancelled
    ∨ e.isCancelled = false ∧ (g.sample steps s).2.1.phase = .failed ∧ g.Faults steps s e

/-- A call that comes to an error fails with it. -/
theorem failsWith_of_ended {g' : Sampler σ} {s' : Shared} {e : Error}
    (h : g.sample steps s = g'.ended s' (.error e))
    (hwhy : e.isCancelled = false → g.Faults steps s e) : g.FailsWith steps s e := by
  refine ⟨by rw [h]; rfl, ?_⟩
  rw [h]
  show _ ∧ (g'.conclude s' (.error e)).1.phase = _
    ∨ _ ∧ (g'.conclude s' (.error e)).1.phase = _ ∧ _
  cases he : e.isCancelled with
  | true => exact .inl ⟨rfl, by simp [conclude, he]⟩
  | false => exact .inr ⟨rfl, by simp [conclude, he], hwhy he⟩

/-- **A call whose sampler is cancelled after its prior pass fails.** -/
theorem exists_failsWith_of_begins {t : Trace} {s' : Shared} (h : g.Begins s t s')
    (hc : (g.sample steps s).2.2.isCancelled g.token = true) :
    ∃ e, g.FailsWith steps s e := by
  have hlast : (g.lastRun steps t s').shared.isCancelled g.token = true := by
    rw [sample_of_begins h] at hc
    unfold Shared.isCancelled at hc
    rw [show (g.resample steps t s').2.2.cancelled = (g.lastRun steps t s').shared.cancelled from
      conclude_cancelled _ _ _] at hc
    exact hc
  have hclosed : (g.lastRun steps t s').isOpen = false := by
    refine Bool.eq_false_iff.mpr fun hopen => ?_
    have hlive := g.job.isCancelled_of_isOpen_drive (Nat.lt_succ_self steps) hopen
    exact absurd (hlive.symm.trans hlast) nofun
  obtain ⟨e, he, hwhy⟩ := answer_of_closed (g := g) hclosed
  have hended : ∃ g' : Sampler σ,
      g.sample steps s = g'.ended (g.lastRun steps t s').shared (.error e) :=
    ⟨_, by rw [sample_of_begins h, ← he]; rfl⟩
  obtain ⟨g', hg'⟩ := hended
  refine ⟨e, failsWith_of_ended hg' fun hfault => ?_⟩
  rcases hwhy with hfailed | ⟨rfl, -⟩
  · exact lastRun_faults h hfailed
  · cases hfault

/-- **A call whose sampler is cancelled fails**, if its prior pass does not panic. -/
theorem sample_of_cancelled (hc : (g.sample steps s).2.2.isCancelled g.token = true) :
    (∃ payload, (g.priorPass s).1 = .panic payload ∧ (g.sample steps s).1 = .panic payload)
      ∨ ∃ e, g.FailsWith steps s e := by
  rcases hp : g.priorPass s with ⟨outcome, t, s'⟩
  cases outcome with
  | panic payload => exact .inl ⟨payload, rfl, by simp only [sample, hp]⟩
  | failure e =>
    refine .inr ⟨e, failsWith_of_ended (by simp only [sample, hp]; rfl) fun _ => ?_⟩
    exact .prior (congrArg Prod.fst hp)
  | value a =>
    cases hv : g.unvisited t with
    | some site =>
      refine .inr ⟨_, failsWith_of_ended (by simp only [sample, hp, hv]; rfl) fun _ => ?_⟩
      exact .unvisited hp hv
    | none => exact .inr (exists_failsWith_of_begins ⟨hp, hv⟩ hc)

/-! ## The course of a cancelled call -/

/-- What a run keeps holds at all later stages. -/
theorem stage_keeps {P : Run → Prop} (hP : g.job.IsInvariant P) {k : Nat}
    (h : P (g.stage steps s k)) (j : Nat) : P (g.stage steps s (k + j)) := by
  induction j with
  | zero => exact h
  | succ j ih =>
    rw [← Nat.add_assoc, stage]
    split
    · exact ih
    · next front => exact hP.takes (hP.launched ih) front

/-- **Once the sampler is cancelled** units are only taken back, one at each stage. -/
theorem queue_stage_of_cancelled {k : Nat}
    (h : (g.stage steps s k).shared.isCancelled g.token = true) (j : Nat) :
    (g.stage steps s (k + j)).queue = (g.stage steps s k).queue.drop j := by
  induction j with
  | zero => rfl
  | succ j ih =>
    have hlater := stage_keeps (g.job.isInvariant_cancelled g.token) h j
    have hqueue := (g.job.queue_launched_of_cancelled hlater).trans ih
    rw [← Nat.add_assoc, stage, ← List.drop_drop, ← hqueue]
    split
    · next hnil =>
      rw [hnil] at hqueue ⊢
      rw [ih, ← hqueue]
      rfl
    · next front =>
      rw [Job.queue_receive, front]
      rfl

/-- **A call that stops cleanly** when its sampler is cancelled. -/
structure StopsCleanly (g : Sampler σ) (steps : Nat) (s : Shared) : Prop where
  /-- Once it is cancelled it stays so. -/
  lasts : ∀ {k}, (g.stage steps s k).shared.isCancelled g.token = true →
    ∀ j, (g.stage steps s (k + j)).shared.isCancelled g.token = true
  /-- No unit is started any more, and those in flight are taken back one after the other. -/
  drains : ∀ {k}, (g.stage steps s k).shared.isCancelled g.token = true →
    ∀ j, (g.job.launched (g.stage steps s (k + j))).queue = (g.stage steps s k).queue.drop j
  /-- Whatever else the program does, what it has been handed refuses to draw, and the draw
  changes nothing. -/
  refuses : ∀ {c}, g.Hands steps s c → ∀ {t : Shared}, t.isCancelled g.token = true →
    ∀ (p : Program σ) (site : Site), c.draw site (p.run t).2 = (.failure .cancelled, (p.run t).2)
  /-- In the end nothing is in flight. -/
  grounded : (g.finalRun steps s).queue = [] ∧ (g.finalRun steps s).schedule.inFlight = []
  /-- The call fails, if the prior pass does not panic. -/
  fails : (∃ payload, (g.priorPass s).1 = .panic payload ∧ (g.sample steps s).1 = .panic payload)
    ∨ ∃ e, g.FailsWith steps s e

/-- **A call stops cleanly**, whenever its sampler is cancelled. -/
theorem stopsCleanly_of_cancelled (hc : (g.sample steps s).2.2.isCancelled g.token = true) :
    g.StopsCleanly steps s where
  lasts h := stage_keeps (g.job.isInvariant_cancelled g.token) h
  drains h j := (g.job.queue_launched_of_cancelled
    (stage_keeps (g.job.isInvariant_cancelled g.token) h j)).trans (queue_stage_of_cancelled h j)
  refuses hands _ ht p site := hands.draw_of_cancelled site (p.isCancelled_run ht)
  grounded := ⟨(g.finalRun_ends steps s).1, g.inFlight_finalRun steps s⟩
  fails := sample_of_cancelled hc

end Sampler

end Resampler
