import Resampler.Proofs.Sampler.Course
import Resampler.Proofs.Schedule.Exclusion
import Resampler.Proofs.Schedule.Tally

/-!
# The parts of a run agree

A run keeps its books in four places: the schedule, its counts, the queue of
units and the shared trace. They are written at different times, a site at its
discovery, a unit at its start, a node when a unit is taken back. Still they
always agree: the sites in flight are those of the units in the queue, in their
order, they are latent, every latent site has a count and a node, and no other
site has a count. This is `Run.IsAligned`.
-/

namespace Resampler

namespace Run

/-- **What adding sites, ending a step and draining keep** is kept when a unit is
taken back. -/
theorem schedule_settle {P : Schedule → Prop} (hadd : ∀ {s}, P s → ∀ y, P (s.addSite y))
    (hfinish : ∀ {s}, P s → ∀ y, P (s.finish y))
    (habandon : ∀ {s}, P s → ∀ y, P (s.abandon y)) (hdrain : ∀ {s}, P s → P s.drain)
    {r : Run} (h : P r.schedule) (site : String) (result : Except Error Trace) :
    P (r.settle site result).schedule := by
  have hjoin : ∀ {s e}, P s → P (join s e) := by
    intro s e hs
    unfold join
    split
    · exact hs
    · exact hadd hs e.1
  cases result with
  | ok nodes =>
    rw [settle_ok]
    refine hfinish ?_ site
    generalize nodes.entries = l
    generalize r.schedule = s at h
    induction l generalizing s with
    | nil => exact h
    | cons e rest ih => exact ih _ (hjoin h)
  | error e =>
    rcases settle_error r site e with he | he
    · rw [he]
      exact habandon h site
    · obtain ⟨c, hc⟩ := abort_eq { r with schedule := r.schedule.abandon site }
        (.siteFailed site e)
      rw [he, hc]
      exact hdrain (habandon h site)

/-- Taking a unit back takes no node away. -/
theorem contains_traceAfter {r : Run} {y : String} (h : r.trace.contains y = true)
    (result : Except Error Trace) : (r.traceAfter result).contains y = true := by
  unfold traceAfter
  split
  · rw [OrderedMap.contains_insertAll, h, Bool.or_true]
  · exact h

/-- Every site of the trace but one is held fixed. -/
theorem contains_others {r : Run} {site y : String} (hne : y ≠ site)
    (h : r.trace.contains y = true) : (r.others site).contains y = true := by
  unfold OrderedMap.contains Run.others Trace.assignment at *
  rw [OrderedMap.get?_filterKeys, decide_eq_false hne, OrderedMap.get?_map]
  simpa using h

/-- **A run whose parts agree.** -/
structure IsAligned (g : DependencyGraph) (r : Run) : Prop where
  /-- No site is in flight twice, and no two that depend on each other are. -/
  apart : r.schedule.KeepsApart g
  /-- What is in flight are the sites of the units in the queue. -/
  flight : r.schedule.inFlight = r.queue.map WorkUnit.site
  /-- The latent sites are counted, and only they are started. -/
  tallies : r.schedule.Tallies
  /-- Every latent site has a node. -/
  known : ∀ y ∈ r.schedule.latent, r.trace.contains y = true

end Run

namespace Job

variable {σ : Type} {job : Job σ}

theorem isInvariant_aligned (job : Job σ) (source : GraphSource) :
    job.IsInvariant (Run.IsAligned source.graph) where
  stops h := ⟨h.apart.sublist rfl (List.Sublist.refl _), h.flight, h.tallies.drain, h.known⟩
  starts {r site d} h hw _ := by
    obtain ⟨hlatent, hf⟩ := Schedule.findWork_eq_some hw
    refine ⟨h.apart.begin hf, ?_, h.tallies.begin hlatent, h.known⟩
    show (r.schedule.begin site).inFlight = (r.queue ++ [_]).map WorkUnit.site
    rw [Schedule.inFlight_begin (Schedule.isFeasible_iff.mp hf).1, h.flight,
      List.map_append]
    rfl
  aborts {r site e} h _ _ := by
    obtain ⟨c, hc⟩ := Run.abort_eq r (.siteFailed site e)
    rw [hc]
    exact ⟨h.apart.sublist rfl (List.Sublist.refl _), h.flight, h.tallies.drain, h.known⟩
  takes {r u rest} h hq := by
    have got := job.received_receive u { r with queue := rest }
    have hflight : r.schedule.inFlight = u.site :: rest.map WorkUnit.site := by
      rw [h.flight, hq]
      rfl
    refine ⟨h.apart.sublist got.graph (got.inFlight ▸ List.erase_sublist), ?_, ?_,
      fun y hy => ?_⟩
    · rw [got.inFlight, got.queue]
      show r.schedule.inFlight.erase u.site = rest.map WorkUnit.site
      rw [hflight, List.erase_cons_head]
    · refine Run.schedule_settle (P := Schedule.Tallies) (fun hs => hs.addSite)
        (fun hs => hs.finish) (fun hs => hs.abandon) (fun hs => hs.drain) ?_ _ _
      exact h.tallies
    · rw [got.trace]
      rcases got.latent y hy with hy | ⟨nodes, hres, hc⟩
      · exact Run.contains_traceAfter (h.known y hy) _
      · rw [hres]
        show (r.trace.insertAll nodes.entries).contains y = true
        rw [OrderedMap.contains_insertAll, hc, Bool.true_or]

end Job

namespace Sampler

variable {σ : Type} {g : Sampler σ} {steps : Nat} {s : Shared}

/-- The sites that are latent at first were drawn, and are not observed. -/
theorem mem_latentSites {t : Trace} {y : String} (h : y ∈ g.latentSites t) :
    t.contains y = true ∧ g.observed.contains y = false := by
  obtain ⟨e, he, rfl⟩ := List.mem_map.mp h
  obtain ⟨he, hb⟩ := List.mem_filter.mp he
  rw [Bool.and_eq_true, Bool.not_eq_true'] at hb
  exact ⟨OrderedMap.mem_keys_iff.mp (List.mem_map.mpr ⟨e, he, rfl⟩),
    (Bool.not_eq_true' _).mp hb.2⟩

theorem isAligned_firstRun (g : Sampler σ) (steps : Nat) (t : Trace) (s : Shared) :
    (g.firstRun steps t s).IsAligned g.settings.dependencies.graph :=
  ⟨Schedule.keepsApart_create _ _ _, rfl, Schedule.tallies_create _ _ _,
    fun _ hy => (mem_latentSites (Schedule.mem_latent_create hy)).1⟩

/-- **The parts of a run agree** in every run that a call reaches. -/
theorem Reaches.isAligned {r : Run} (h : g.Reaches steps s r) :
    r.IsAligned g.settings.dependencies.graph :=
  h.keeps (g.job.isInvariant_aligned (.declared g.settings.dependencies))
    fun _ => g.isAligned_firstRun steps _ _

end Sampler

end Resampler
