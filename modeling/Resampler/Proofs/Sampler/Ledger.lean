import Resampler.Proofs.Sampler.Alignment

/-!
# The ledger of a call

While a run is driven, units are started and taken back. `Job.started` lists
the first, in the order of their start, and `Job.ledger` the second, in the
order in which they are taken back, each with what it came to.

The two lists always agree: whatever becomes of the units, a unit that is
started is taken back once, in its turn, and driving ends when none is left.
No two units are the same, for each is started with a key of its own. As long
as a run is open, every start takes a step of the budget, and it ends only when
there is nothing left to start.
-/

namespace Resampler

variable {σ : Type}

/-! ## Budgets -/

@[simp] theorem Schedule.pending_foldl_join (l : List (String × TraceNode)) (s : Schedule) :
    (l.foldl Run.join s).pending = s.pending := by
  induction l generalizing s with
  | nil => rfl
  | cons e rest ih =>
    rw [List.foldl_cons, ih]
    unfold Run.join
    split
    · rfl
    · exact pending_addSite s e.1

/-! ## Starting -/

/-- The key of the unit that is started when the root of a run has a given
number. -/
def RandomKey.ofUnit (i : Nat) : RandomKey := (RandomKey.top i).deeper

/-- **What starting units does to a run**: they queue up behind the others, each
takes a step, holds fixed what the trace says of the other sites, and gets the
next key. -/
structure Run.Issues (r r' : Run) (new : List WorkUnit) : Prop where
  queue : r'.queue = r.queue ++ new
  bounded : r'.schedule.pending + new.length ≤ r.schedule.pending
  pending : r'.isOpen = true → r'.schedule.pending + new.length = r.schedule.pending
  fixed : ∀ u ∈ new, u.fixed = r.others u.site
  keys : ∀ {i}, r.root = .top i → r'.root = .top (i + new.length)
    ∧ new.map WorkUnit.key = (List.range' i new.length).map RandomKey.ofUnit

/-- What leaves the queue and the root alone issues nothing. -/
theorem Run.Issues.none {r r' : Run} (hq : r'.queue = r.queue) (hroot : r'.root = r.root)
    (hb : r'.schedule.pending ≤ r.schedule.pending)
    (hp : r'.isOpen = true → r'.schedule.pending = r.schedule.pending) :
    r.Issues r' [] :=
  ⟨hq.trans (List.append_nil _).symm, hb, hp, (fun _ hu => nomatch hu),
    fun h => ⟨hroot.trans h, rfl⟩⟩

/-- An aborted run is closed. -/
theorem Run.isOpen_abort (r : Run) (e : Error) : (r.abort e).isOpen = false := rfl

/-- **A run is open after a unit** only if it was before, and if the unit did not
fail, or was cancelled. -/
theorem Run.of_isOpen_settle {r : Run} {site : String} {result : Except Error Trace}
    (h : (r.settle site result).isOpen = true) :
    r.isOpen = true ∧ ∀ e, result = .error e → e.isCancelled = true := by
  cases result with
  | ok nodes =>
    rw [settle_ok] at h
    exact ⟨h, fun _ he => nomatch he⟩
  | error e =>
    by_cases hc : e.isCancelled = true ∨ r.isOpen = false
    · rw [settle_of_drops hc] at h
      have hopen : r.isOpen = true := h
      refine ⟨hopen, fun e' he => ?_⟩
      cases he
      exact hc.resolve_right (Bool.not_eq_false _ ▸ hopen)
    · rw [not_or, Bool.not_eq_true, Bool.not_eq_false] at hc
      rw [settle_of_fails hc.1 hc.2, isOpen_abort] at h
      cases h

/-- Taking a unit back leaves the steps alone in a run that stays open. -/
theorem Run.pending_settle {r : Run} {site : String} {result : Except Error Trace}
    (h : (r.settle site result).isOpen = true) :
    (r.settle site result).schedule.pending = r.schedule.pending := by
  cases result with
  | ok nodes =>
    rw [settle_ok]
    simp
  | error e =>
    rcases settle_error r site e with he | he
    · rw [he]
      rfl
    · rw [he, isOpen_abort] at h
      cases h

namespace Job

variable {job : Job σ} {r : Run}

theorem of_isOpen_receive {u : WorkUnit} (h : (job.receive u r).isOpen = true) :
    r.isOpen = true
      ∧ ∀ e, (u.resample job r.executions r.shared).1 = .error e → e.isCancelled = true :=
  Run.of_isOpen_settle
    (r := { r with
      executions := r.executions + 1
      shared := (u.resample job r.executions r.shared).2 }) h

/-- **A run that is closed stays closed.** -/
theorem isInvariant_closed (job : Job σ) : job.IsInvariant fun r => r.isOpen = false where
  stops _ := by simp [Run.isOpen]
  starts h _ _ := h
  aborts _ _ _ := Run.isOpen_abort _ _
  takes {r u rest} h _ := by
    refine Bool.eq_false_iff.mpr fun ho => ?_
    have hopen : r.isOpen = true := (of_isOpen_receive ho).1
    rw [h] at hopen
    cases hopen

/-- What a run keeps, it keeps while it is driven. -/
theorem IsInvariant.drive {P : Run → Prop} (hP : job.IsInvariant P) (n : Nat) (h : P r) :
    P (job.drive n r) := by
  induction n generalizing r with
  | zero => exact h
  | succ n ih =>
    cases hq : (job.launched r).queue with
    | nil =>
      rw [drive_of_nil hq]
      exact hP.launched h
    | cons u rest =>
      rw [drive_of_cons hq]
      exact ih (hP.takes (hP.launched h) hq)

theorem isOpen_of_drive {n : Nat} (h : (job.drive n r).isOpen = true) :
    r.isOpen = true := by
  cases hr : r.isOpen with
  | true => rfl
  | false =>
    rw [job.isInvariant_closed.drive n hr] at h
    cases h

/-- **Units are started one after the other.** -/
theorem exists_issues_startUpTo (job : Job σ) (n : Nat) (r : Run) :
    ∃ new, r.Issues (job.startUpTo n r) new := by
  induction n generalizing r with
  | zero => exact ⟨[], .none rfl rfl (Nat.le_refl _) fun _ => rfl⟩
  | succ n ih =>
    unfold startUpTo
    split
    · exact ⟨[], .none rfl rfl (Nat.le_refl _) fun _ => rfl⟩
    · next site hw =>
      split
      · exact ⟨[], .none rfl rfl (Nat.zero_le _) fun ho => Bool.noConfusion ho⟩
      · next d _ =>
        have hsteps := Schedule.pending_ne_zero_of_findWork hw
        obtain ⟨new, hq, hb, hp, hfix, hk⟩ := ih (r.start job.token site d)
        refine ⟨⟨site, d, r.others site, r.root.deeper,
          (r.shared.newChild job.token).1⟩ :: new, ?_, ?_, fun h => ?_, fun u hu => ?_,
          fun {i} h => ?_⟩
        · rw [hq]
          exact List.append_assoc _ [_] new
        · change _ ≤ r.schedule.pending - 1 at hb
          rw [List.length_cons]
          omega
        · have hrest := hp h
          change _ = r.schedule.pending - 1 at hrest
          rw [List.length_cons]
          omega
        · rcases List.mem_cons.mp hu with rfl | hu
          · rfl
          · exact hfix u hu
        · have hroot : (r.start job.token site d).root = .top (i + 1) := by
            show r.root.incremented = _
            rw [h]
            rfl
          obtain ⟨hroot', hkeys⟩ := hk hroot
          rw [List.length_cons, List.range'_succ, List.map_cons, List.map_cons, hkeys, h,
            hroot', Nat.add_assoc, Nat.add_comm 1]
          exact ⟨rfl, rfl⟩

/-- **Starting everything** is starting as many units as there are steps, or the
run is closed, or closes now, and nothing is started. -/
theorem launched_cases (job : Job σ) (r : Run) :
    job.launched r = job.startUpTo r.schedule.pending r
      ∨ r.isOpen = false ∧ job.launched r = r
      ∨ job.launched r = { r with stopped := true, schedule := r.schedule.drain } := by
  unfold launched watch
  cases hr : r.isOpen with
  | false =>
    refine .inr (.inl ⟨rfl, ?_⟩)
    rw [Bool.false_and, if_neg Bool.false_ne_true, startAll, hr, if_neg Bool.false_ne_true]
  | true =>
    rw [Bool.true_and]
    split
    · refine .inr (.inr ?_)
      simp [startAll, Run.isOpen]
    · refine .inl ?_
      rw [startAll, if_pos hr]

/-- Starting everything puts some more units into the queue. -/
theorem exists_issues_launched (job : Job σ) (r : Run) :
    ∃ new, r.Issues (job.launched r) new := by
  rcases launched_cases job r with h | ⟨-, h⟩ | h
  · rw [h]
    exact exists_issues_startUpTo job _ r
  · rw [h]
    exact ⟨[], .none rfl rfl (Nat.le_refl _) fun _ => rfl⟩
  · rw [h]
    exact ⟨[], .none rfl rfl (Nat.zero_le _) fun ho => by simp [Run.isOpen] at ho⟩

/-- With as many starts as there are steps, nothing is found in the end. -/
theorem findWork_startUpTo {n : Nat} {r : Run} (hn : r.schedule.pending ≤ n)
    (h : (job.startUpTo n r).isOpen = true) :
    (job.startUpTo n r).schedule.findWork = none := by
  induction n generalizing r with
  | zero => exact if_pos (Nat.le_zero.mp hn)
  | succ n ih =>
    unfold startUpTo at h ⊢
    split
    · next hw => exact hw
    · next site hw =>
      have hsteps := Schedule.pending_ne_zero_of_findWork hw
      rw [hw] at h
      dsimp only at h
      split
      · next e he =>
        rw [he] at h
        cases h
      · next d hd =>
        rw [hd] at h
        refine ih ?_ h
        show r.schedule.pending - 1 ≤ n
        omega

/-- **A run in which everything has been started** and that is still open has
nothing more to start. -/
theorem findWork_launched (h : (job.launched r).isOpen = true) :
    (job.launched r).schedule.findWork = none := by
  rcases launched_cases job r with he | ⟨hc, he⟩ | he
  · rw [he] at h ⊢
    exact findWork_startUpTo (Nat.le_refl _) h
  · rw [he, hc] at h
    cases h
  · rw [he] at h
    simp [Run.isOpen] at h

/-- The units that are started when everything is. -/
def startedIn (job : Job σ) (r : Run) : List WorkUnit :=
  (job.launched r).queue.drop r.queue.length

theorem issues_launched (job : Job σ) (r : Run) :
    r.Issues (job.launched r) (job.startedIn r) := by
  obtain ⟨new, h⟩ := exists_issues_launched job r
  have hnew : job.startedIn r = new := by
    rw [startedIn, h.queue, List.drop_left]
  rwa [hnew]

/-! ## Taking back -/

/-- Taking a unit back adds no step. -/
theorem pending_receive_le (job : Job σ) (u : WorkUnit) (r : Run) :
    (job.receive u r).schedule.pending ≤ r.schedule.pending := by
  refine Run.schedule_settle (P := fun s => s.pending ≤ r.schedule.pending)
    (r := { r with
      executions := r.executions + 1
      shared := (u.resample job r.executions r.shared).2 })
    (fun h y => ?_) (fun h y => ?_) (fun h _ => h) (fun _ => Nat.zero_le _)
    (Nat.le_refl _) _ _
  · rwa [Schedule.pending_addSite]
  · rwa [Schedule.pending_finish]

/-! ## The two lists -/

/-- **The units that are started** while a run is driven, in the order of their
start. -/
def started (job : Job σ) : Nat → Run → List WorkUnit
  | 0, _ => []
  | n + 1, r =>
    job.startedIn r ++ match (job.launched r).queue with
      | [] => []
      | u :: rest => job.started n (job.receive u { job.launched r with queue := rest })

/-- **The units that are taken back** while a run is driven, each with what it
came to. -/
def ledger (job : Job σ) : Nat → Run → List (WorkUnit × Except Error Trace)
  | 0, _ => []
  | n + 1, r =>
    match (job.launched r).queue with
    | [] => []
    | u :: rest =>
      (u, (u.resample job (job.launched r).executions (job.launched r).shared).1)
        :: job.ledger n (job.receive u { job.launched r with queue := rest })

theorem started_of_nil (h : (job.launched r).queue = []) (n : Nat) :
    job.started (n + 1) r = [] := by
  simp [started, startedIn, h]

theorem started_of_cons {u : WorkUnit} {rest : List WorkUnit}
    (h : (job.launched r).queue = u :: rest) (n : Nat) :
    job.started (n + 1) r = job.startedIn r
      ++ job.started n (job.receive u { job.launched r with queue := rest }) := by
  simp only [started, h]

theorem ledger_of_nil (h : (job.launched r).queue = []) (n : Nat) :
    job.ledger (n + 1) r = [] := by
  simp only [ledger, h]

theorem ledger_of_cons {u : WorkUnit} {rest : List WorkUnit}
    (h : (job.launched r).queue = u :: rest) (n : Nat) :
    job.ledger (n + 1) r
      = (u, (u.resample job (job.launched r).executions (job.launched r).shared).1)
        :: job.ledger n (job.receive u { job.launched r with queue := rest }) := by
  simp only [ledger, h]

theorem queue_receive (job : Job σ) (u : WorkUnit) (r : Run) :
    (job.receive u r).queue = r.queue :=
  (job.received_receive u r).queue

/-- **No unit gets lost**: what was in the queue and what is started is taken back,
in this order, or is still in the queue. -/
theorem queue_append_started (job : Job σ) (n : Nat) (r : Run) :
    r.queue ++ job.started n r
      = (job.ledger n r).map Prod.fst ++ (job.drive n r).queue := by
  induction n generalizing r with
  | zero => exact List.append_nil _
  | succ n ih =>
    have hq := (job.issues_launched r).queue
    cases h : (job.launched r).queue with
    | nil =>
      rw [started_of_nil h, ledger_of_nil h, drive_of_nil h, h]
      rw [h] at hq
      simp [(List.append_eq_nil_iff.mp hq.symm).1]
    | cons u rest =>
      rw [started_of_cons h, ledger_of_cons h, drive_of_cons h, ← List.append_assoc, ← hq,
        h, List.map_cons, List.cons_append, List.cons_append, ← ih, queue_receive]

/-- **Every turn leaves less to do**, in units that are queued and steps that are left. -/
theorem todo_receive_lt {u : WorkUnit} {rest : List WorkUnit}
    (h : (job.launched r).queue = u :: rest) :
    (job.receive u { job.launched r with queue := rest }).schedule.pending
        + (job.receive u { job.launched r with queue := rest }).queue.length
      < r.schedule.pending + r.queue.length := by
  -- The unit that is taken back is not started again.
  have issued := job.issues_launched r
  have hsteps : _ ≤ (job.launched r).schedule.pending :=
    pending_receive_le job u { job.launched r with queue := rest }
  have hlen := congrArg List.length issued.queue
  rw [h, List.length_cons, List.length_append] at hlen
  have hbounded := issued.bounded
  rw [queue_receive]
  show _ + rest.length < _
  omega

/-- **Driving comes to an end**: with more turns than there are units and steps,
nothing is left in the queue, and nothing to start if the run is open. -/
theorem drive_ends {n : Nat} {r : Run} (hn : r.schedule.pending + r.queue.length < n) :
    (job.drive n r).queue = []
      ∧ ((job.drive n r).isOpen = true → (job.drive n r).schedule.findWork = none) := by
  induction n generalizing r with
  | zero => exact absurd hn (Nat.not_lt_zero _)
  | succ n ih =>
    cases h : (job.launched r).queue with
    | nil =>
      rw [drive_of_nil h]
      exact ⟨h, findWork_launched⟩
    | cons u rest =>
      rw [drive_of_cons h]
      exact ih (Nat.lt_of_lt_of_le (todo_receive_lt h) (Nat.le_of_lt_succ hn))

/-- **Every unit has a key of its own**: the keys follow each other from that of the
root. -/
theorem map_key_started (job : Job σ) (n : Nat) {r : Run} {i : Nat}
    (h : r.root = .top i) : (job.started n r).map WorkUnit.key
      = (List.range' i (job.started n r).length).map RandomKey.ofUnit := by
  induction n generalizing r i with
  | zero => rfl
  | succ n ih =>
    obtain ⟨hroot, hkeys⟩ := (job.issues_launched r).keys h
    cases hq : (job.launched r).queue with
    | nil => rw [started_of_nil hq]; rfl
    | cons u rest =>
      have hroot' : (job.receive u { job.launched r with queue := rest }).root
          = .top (i + (job.startedIn r).length) :=
        (job.received_receive u _).root.trans hroot
      rw [started_of_cons hq, List.map_append, hkeys, ih hroot', List.length_append,
        ← List.map_append, List.range'_append_1]

theorem nodup_key_started (job : Job σ) (n : Nat) {r : Run} {i : Nat}
    (h : r.root = .top i) : ((job.started n r).map WorkUnit.key).Nodup := by
  rw [job.map_key_started n h, List.nodup_iff_pairwise_ne, List.pairwise_map]
  refine List.Pairwise.imp (fun hlt he => ?_) List.pairwise_lt_range'
  cases he
  exact Nat.lt_irrefl _ hlt

/-- **Every start takes a step**, and nothing else does while the run is open. -/
theorem pending_drive {n : Nat} {r : Run} (h : (job.drive n r).isOpen = true) :
    (job.drive n r).schedule.pending + (job.started n r).length = r.schedule.pending := by
  induction n generalizing r with
  | zero => rfl
  | succ n ih =>
    have issued := job.issues_launched r
    cases hq : (job.launched r).queue with
    | nil =>
      rw [drive_of_nil hq] at h ⊢
      have hnone : job.startedIn r = [] := by simp [startedIn, hq]
      have hp := issued.pending h
      rw [hnone] at hp
      rwa [started_of_nil hq]
    | cons u rest =>
      rw [drive_of_cons hq] at h ⊢
      have hopen := isOpen_of_drive h
      have hp := issued.pending (of_isOpen_receive hopen).1
      have hsame : (job.receive u { job.launched r with queue := rest }).schedule.pending
          = (job.launched r).schedule.pending := Run.pending_settle hopen
      have hrest := ih h
      rw [started_of_cons hq, List.length_append]
      omega

end Job

end Resampler
