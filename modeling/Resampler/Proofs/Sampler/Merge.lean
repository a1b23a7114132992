import Resampler.Sampler.Run

/-!
# Taking a unit back

What a unit brings back is written over the shared trace, and the sites among
it that were drawn join the schedule. Nothing else of a run changes, apart from
the site that is no longer in flight. A unit that failed leaves the trace
alone; it may fail the run, and then the tokens of the units in flight are
cancelled.
-/

namespace Resampler

namespace Run

variable {r : Run}

/-! ## Merging draws -/

/-- **Merging writes the draws over the trace** and lets sites join. -/
theorem foldl_mergeNode (l : List (String × TraceNode)) (r : Run) :
    l.foldl mergeNode r = { r with
      schedule := l.foldl join r.schedule
      trace := r.trace.insertAll l } := by
  induction l generalizing r with
  | nil => rfl
  | cons e rest ih =>
    rw [List.foldl_cons, ih]
    rfl

theorem graph_join (s : Schedule) (e : String × TraceNode) :
    (join s e).graph = s.graph := by
  unfold join
  split
  · rfl
  · exact s.graph_addSite e.1

theorem inFlight_join (s : Schedule) (e : String × TraceNode) :
    (join s e).inFlight = s.inFlight := by
  unfold join
  split
  · rfl
  · exact s.inFlight_addSite e.1

@[simp] theorem graph_foldl_join (l : List (String × TraceNode)) (s : Schedule) :
    (l.foldl join s).graph = s.graph := by
  induction l generalizing s with
  | nil => rfl
  | cons e rest ih => rw [List.foldl_cons, ih, graph_join]

@[simp] theorem inFlight_foldl_join (l : List (String × TraceNode)) (s : Schedule) :
    (l.foldl join s).inFlight = s.inFlight := by
  induction l generalizing s with
  | nil => rfl
  | cons e rest ih => rw [List.foldl_cons, ih, inFlight_join]

theorem mem_latent_join {s : Schedule} {e : String × TraceNode} {y : String}
    (h : y ∈ (join s e).latent) : y ∈ s.latent ∨ y = e.1 := by
  unfold join Schedule.addSite at h
  split at h
  · exact .inl h
  · split at h
    · exact .inl h
    · exact (List.mem_append.mp h).imp_right List.mem_singleton.mp

/-- **Only sites that were brought back join the schedule.** -/
theorem mem_latent_foldl_join {l : List (String × TraceNode)} {s : Schedule}
    {y : String} (h : y ∈ (l.foldl join s).latent) :
    y ∈ s.latent ∨ y ∈ l.map Prod.fst := by
  induction l generalizing s with
  | nil => exact .inl h
  | cons e rest ih =>
    rcases ih h with hy | hy
    · rcases mem_latent_join hy with hy | rfl
      · exact .inl hy
      · exact .inr List.mem_cons_self
    · exact .inr (List.mem_cons_of_mem _ hy)

/-! ## Cancelling what is in flight -/

/-- Cancelling tokens changes nothing but which tokens are cancelled. -/
theorem foldl_cancel (l : List WorkUnit) (s : Shared) :
    ∃ cancelled, l.foldl (fun s u => s.cancel u.token) s
      = { s with cancelled := cancelled } := by
  induction l generalizing s with
  | nil => exact ⟨s.cancelled, rfl⟩
  | cons u rest ih =>
    obtain ⟨c, hc⟩ := ih (s.cancel u.token)
    exact ⟨c, hc⟩

/-- **An aborted run** has failed and starts nothing more. -/
theorem abort_eq (r : Run) (e : Error) :
    ∃ cancelled, r.abort e = { r with
      failure := some e
      shared := { r.shared with cancelled := cancelled }
      schedule := r.schedule.drain } := by
  obtain ⟨c, hc⟩ := foldl_cancel r.queue r.shared
  exact ⟨c, by rw [abort, hc]⟩

/-! ## Taking a unit back -/

theorem settle_ok (r : Run) (site : String) (nodes : Trace) :
    r.settle site (.ok nodes) = { r with
      schedule := (nodes.entries.foldl join r.schedule).finish site
      trace := r.trace.insertAll nodes.entries } := by
  unfold settle
  simp only [foldl_mergeNode]

/-- **A unit that failed aborts an open run**, and is abandoned. -/
theorem settle_of_fails {site : String} {e : Error} (he : e.isCancelled = false)
    (ho : r.isOpen = true) : r.settle site (.error e)
      = { r with schedule := r.schedule.abandon site }.abort (.siteFailed site e) := by
  show (if (!e.isCancelled && r.isOpen) = true then _ else _) = _
  rw [he, ho]
  rfl

/-- **A unit that was cancelled is abandoned**, and so is every unit of a closed run. -/
theorem settle_of_drops {site : String} {e : Error}
    (h : e.isCancelled = true ∨ r.isOpen = false) :
    r.settle site (.error e) = { r with schedule := r.schedule.abandon site } := by
  show (if (!e.isCancelled && r.isOpen) = true then _ else _) = _
  rcases h with h | h
  · rw [h]
    rfl
  · rw [h, Bool.and_false]
    rfl

/-- A unit that failed is abandoned, and the run perhaps aborted. -/
theorem settle_error (r : Run) (site : String) (e : Error) :
    r.settle site (.error e) = { r with schedule := r.schedule.abandon site }
      ∨ r.settle site (.error e)
        = { r with schedule := r.schedule.abandon site }.abort (.siteFailed site e) := by
  by_cases h : e.isCancelled = true ∨ r.isOpen = false
  · exact .inl (settle_of_drops h)
  · rw [not_or, Bool.not_eq_true, Bool.not_eq_false] at h
    exact .inr (settle_of_fails h.1 h.2)

/-- The trace after a unit: what it brought back, over what there was. -/
def traceAfter (r : Run) : Except Error Trace → Trace
  | .ok nodes => r.trace.insertAll nodes.entries
  | .error _ => r.trace

/-- **What taking a unit back does to a run.** -/
structure Taken (r : Run) (site : String) (result : Except Error Trace)
    (r' : Run) : Prop where
  trace : r'.trace = r.traceAfter result
  queue : r'.queue = r.queue
  root : r'.root = r.root
  graph : r'.schedule.graph = r.schedule.graph
  inFlight : r'.schedule.inFlight = r.schedule.inFlight.erase site
  latent : ∀ y ∈ r'.schedule.latent, y ∈ r.schedule.latent
    ∨ ∃ nodes, result = .ok nodes ∧ nodes.contains y = true
  shared : ∃ cancelled, r'.shared = { r.shared with cancelled := cancelled }
  failure : ∀ e, r'.failure = some e → r.failure = some e
    ∨ ∃ e', result = .error e' ∧ e = .siteFailed site e'

theorem taken_settle (r : Run) (site : String) (result : Except Error Trace) :
    Taken r site result (r.settle site result) := by
  cases result with
  | ok nodes =>
    rw [settle_ok]
    refine ⟨rfl, rfl, rfl, ?_, ?_, fun y hy => ?_, ⟨_, rfl⟩, fun e he => .inl he⟩
    · rw [Schedule.graph_finish, graph_foldl_join]
    · rw [Schedule.inFlight_finish, inFlight_foldl_join]
    · rw [Schedule.latent_finish] at hy
      rcases mem_latent_foldl_join hy with hy | hy
      · exact .inl hy
      · exact .inr ⟨nodes, rfl, OrderedMap.mem_keys_iff.mp hy⟩
  | error e =>
    rcases settle_error r site e with h | h
    · rw [h]
      exact ⟨rfl, rfl, rfl, rfl, rfl, fun y hy => .inl hy, ⟨_, rfl⟩, fun e he => .inl he⟩
    · obtain ⟨c, hc⟩ := abort_eq { r with schedule := r.schedule.abandon site }
        (.siteFailed site e)
      rw [h, hc]
      refine ⟨rfl, rfl, rfl, rfl, rfl, fun y hy => .inl hy, ⟨c, rfl⟩, fun e' he => ?_⟩
      exact .inr ⟨e, rfl, (Option.some.inj he).symm⟩

end Run

end Resampler
