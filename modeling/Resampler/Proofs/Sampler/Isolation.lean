import Resampler.Proofs.Sampler.Ledger

/-!
# Units in flight

While a unit for a site is in flight, others are taken back, and what they
bring with them is written into the shared trace. None of it is the node of
that site, or of a site that it depends on, as far as the site was in the trace
when the other unit was started. Such a site is either the one that the other
unit resamples, and then it would not be in flight together with this one, or
it is held fixed there, and then it is not brought back.

Of a site that the other unit has come upon by itself nothing of the kind can
be said. It is merged whatever is in flight, and a unit that has not seen it
either may replace its node later.
-/

namespace Resampler

variable {σ : Type}

namespace Sampler

variable {g : Sampler σ} {steps : Nat} {s : Shared}

/-- **A unit is launched in a run** that a call reaches, as one of those that can be
started there. -/
structure Launches (g : Sampler σ) (steps : Nat) (s : Shared) (u : WorkUnit)
    (r : Run) : Prop where
  reached : g.Reaches steps s r
  started : u ∈ g.job.startedIn r

/-- It holds fixed what the trace says of all other sites. -/
theorem Launches.fixed {u : WorkUnit} {r : Run} (h : g.Launches steps s u r) :
    u.fixed = r.others u.site :=
  (g.job.issues_launched r).fixed u h.started

theorem exists_launches_of_launched {r : Run} (h : g.Reaches steps s r)
    (hold : ∀ u ∈ r.queue, ∃ r₀, g.Launches steps s u r₀) {u : WorkUnit}
    (hu : u ∈ (g.job.launched r).queue) : ∃ r₀, g.Launches steps s u r₀ := by
  rw [(g.job.issues_launched r).queue] at hu
  rcases List.mem_append.mp hu with hu | hu
  · exact hold u hu
  · exact ⟨r, h, hu⟩

/-- **Every unit in flight has been launched.** -/
theorem Reaches.exists_launches {r : Run} (h : g.Reaches steps s r) :
    ∀ u ∈ r.queue, ∃ r₀, g.Launches steps s u r₀ := by
  induction h with
  | first begins => exact fun u hu => nomatch hu
  | @turn r u rest before front ih =>
    intro u' hu'
    rw [Job.queue_receive] at hu'
    refine exists_launches_of_launched before ih ?_
    rw [front]
    exact List.mem_cons_of_mem u hu'

theorem Executes.exists_launches {u : WorkUnit} {r : Run} (h : g.Executes steps s u r) :
    ∃ r₀, g.Launches steps s u r₀ := by
  cases h with
  | intro before front =>
    refine exists_launches_of_launched before before.exists_launches ?_
    rw [front]
    exact List.mem_cons_self

/-- **The unit that is taken back** is for another site than those in flight, and
for none that one of them depends on. -/
theorem Executes.apart {w u : WorkUnit} {r : Run} (h : g.Executes steps s w r)
    (hu : u ∈ r.queue) :
    u.site ≠ w.site ∧ g.settings.dependencies.graph.depends u.site w.site = false := by
  cases h with
  | @intro r₀ _ rest before front =>
    have haligned := (g.job.isInvariant_aligned (.declared g.settings.dependencies)).launched
      before.isAligned
    have hflight := haligned.flight
    rw [front, List.map_cons] at hflight
    have honce := haligned.apart.once
    have hsite : u.site ∈ rest.map WorkUnit.site := List.mem_map_of_mem hu
    refine ⟨fun he => ?_, haligned.apart.apart _ ?_ _ ?_⟩
    · rw [hflight, List.nodup_cons, ← he] at honce
      exact honce.1 hsite
    · rw [hflight]
      exact List.mem_cons_of_mem _ hsite
    · rw [hflight]
      exact List.mem_cons_self

/-- What a unit holds fixed is the same in the trace after it. -/
theorem get?_trace_receive {job : Job σ} {w : WorkUnit} {r : Run} {t : String}
    (h : w.fixed.contains t = true) :
    (job.receive w r).trace.get? t = r.trace.get? t := by
  rw [(job.received_receive w r).trace]
  unfold Run.traceAfter
  split
  · next nodes hres =>
    rw [OrderedMap.get?_insertAll, (WorkUnit.resample_eq_ok hres).2, WorkUnit.free,
      OrderedMap.get?_filterKeys, h]
    rfl
  · rfl

/-- **A unit in flight is isolated** from what is taken back meanwhile: the nodes of
its site, and of those that this depends on, stay what they are, apart from
sites that were not in the trace yet when the other unit was started. -/
theorem Executes.isolates {w : WorkUnit} {r : Run} (h : g.Executes steps s w r) :
    ∃ r₀, g.Launches steps s w r₀ ∧ ∀ u ∈ r.queue, ∀ t,
      t = u.site ∨ g.settings.dependencies.graph.depends u.site t = true →
      r₀.trace.contains t = true →
      (g.job.receive w r).trace.get? t = r.trace.get? t := by
  obtain ⟨r₀, hl⟩ := h.exists_launches
  refine ⟨r₀, hl, fun u hu t ht hknown => ?_⟩
  obtain ⟨hsite, hfree⟩ := h.apart hu
  have hne : t ≠ w.site := by
    intro he
    rcases ht with rfl | hd
    · exact hsite he
    · rw [he, hfree] at hd
      cases hd
  refine get?_trace_receive ?_
  rw [hl.fixed]
  exact Run.contains_others hne hknown

/-- A sampler of three sites of which none depends on another. There is a fourth
one if the first or the last has been resampled, which repeats the value of the
first. The second depends on it. -/
def intruding : Sampler Unit :=
  { Sampler.small (fun _ c => .ask c (.drawn "a" .ofDepth) fun v =>
      .ask c (.drawn "d" .ofDepth) fun _ =>
      .ask c (.drawn "b" .ofDepth) fun w =>
        if v.nat? = some 3 ∨ w.nat? = some 3 then
          .ask c (.drawn "c" (.constant v v)) fun _ => .done
        else .done) [] with
    settings := { Settings.standard with
      dependencies := .blankets (.ofList [("d", ["c"])]) } }

/-- The number that a trace has for the fourth site. -/
def fourth (t : Trace) : Option Nat := (t.get? "c").bind fun node => node.value.nat?

/-- What there is to see when the unit after some others is taken back: its site,
the sites in flight, and the fourth site before and after it. -/
def glance (k : Nat) : Option (String × List String × Option Nat × Option Nat) :=
  match (intruding.job.launched (intruding.stage 5 .small k)).queue with
  | [] => none
  | w :: rest =>
    let r := { intruding.job.launched (intruding.stage 5 .small k) with queue := rest }
    some (w.site, rest.map WorkUnit.site, fourth r.trace,
      fourth (intruding.job.receive w r).trace)

theorem executes_of_glance {k : Nat} {seen : String × List String × Option Nat × Option Nat}
    (h : glance k = some seen) :
    ∃ w r, intruding.Executes 5 .small w r
      ∧ (w.site, r.queue.map WorkUnit.site, fourth r.trace,
        fourth (intruding.job.receive w r).trace) = seen := by
  unfold glance at h
  split at h
  · cases h
  · next w rest front =>
    have hreached : intruding.Reaches 5 .small (intruding.stage 5 .small k) :=
      reaches_stage (by decide +kernel) (by decide +kernel) k
    exact ⟨w, _, .intro hreached front, Option.some.inj h⟩

/-- The first unit is for the last site; its merge leaves alone what was known. -/
theorem isolates_intruding :
    ∃ w r, intruding.Executes 5 .small w r ∧ r.queue.map WorkUnit.site = ["d", "a"]
      ∧ ∃ r₀, intruding.Launches 5 .small w r₀ ∧ ∀ u ∈ r.queue, ∀ t,
        t = u.site ∨ intruding.settings.dependencies.graph.depends u.site t = true →
        r₀.trace.contains t = true →
        (intruding.job.receive w r).trace.get? t = r.trace.get? t := by
  have hseen : glance 0 = some ("b", ["d", "a"], none, some 2) := by decide +kernel
  obtain ⟨w, r, hexec, heq⟩ := executes_of_glance hseen
  exact ⟨w, r, hexec, congrArg (fun out => out.2.1) heq, Executes.isolates hexec⟩

/-- A unit that changes the fourth site while another is in flight. -/
theorem exists_change {k : Nat} {name site : String} {sites : List String}
    {x y : Option Nat} (h : glance k = some (name, sites, x, y)) (hin : site ∈ sites)
    (hne : y ≠ x) : ∃ w r u, intruding.Executes 5 .small w r ∧ u ∈ r.queue ∧ u.site = site
      ∧ (intruding.job.receive w r).trace.get? "c" ≠ r.trace.get? "c" := by
  obtain ⟨w, r, hexec, heq⟩ := executes_of_glance h
  cases heq
  obtain ⟨u, hu, hsite⟩ := List.mem_map.mp hin
  refine ⟨w, r, u, hexec, hu, hsite, fun he => hne ?_⟩
  unfold fourth
  rw [he]

/-- **A site that a unit has come upon is merged whatever is in flight.** The first
unit brings the fourth site while the second is in flight, which depends on it;
the third replaces the node of the fourth while that is in flight itself. -/
theorem exists_intrusion :
    (∃ w r u, intruding.Executes 5 .small w r ∧ u ∈ r.queue
      ∧ intruding.settings.dependencies.graph.depends u.site "c" = true
      ∧ (intruding.job.receive w r).trace.get? "c" ≠ r.trace.get? "c")
    ∧ ∃ w r u, intruding.Executes 5 .small w r ∧ u ∈ r.queue ∧ u.site = "c"
      ∧ (intruding.job.receive w r).trace.get? "c" ≠ r.trace.get? "c" := by
  have hbringing : glance 0 = some ("b", ["d", "a"], none, some 2) := by decide +kernel
  have hreplacing : glance 2 = some ("a", ["b", "c"], some 2, some 3) := by decide +kernel
  refine ⟨?_, exists_change hreplacing (by decide) (by decide)⟩
  obtain ⟨w, r, u, hexec, hu, hsite, hchange⟩ :=
    exists_change hbringing (List.mem_cons_self : "d" ∈ _) (by decide)
  exact ⟨w, r, u, hexec, hu, by rw [hsite]; decide, hchange⟩

end Sampler

end Resampler
