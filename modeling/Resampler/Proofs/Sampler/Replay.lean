import Resampler.Proofs.Chain.Candour
import Resampler.Proofs.Program.Inquiry
import Resampler.Proofs.Sampler.Observations

/-!
# The trace can be replayed

The shared trace is put together from many executions: a unit replaces the node
of its site, adds the nodes of sites that have come into existence, and leaves
alone those of sites that are not visited any more. Still, if one site is
resampled at a time, the program can always be replayed on it.

The reason is that a unit executes the program with every other site held fixed
at its value in the trace. What it asks for is therefore either fixed, and has
that value also in the trace afterwards, or is brought back, and has the value
that was answered. So it is the execution that has just been completed that the
new trace replays, and of the old trace nothing needs to be known. A unit that
fails brings nothing back.

Observations are not replayed by value. All that is needed of them is that the
interpreters answer them with their own value, as all do that do not answer
everything with a constant.
-/

namespace Resampler

namespace Inquiry

variable {σ : Type} {data : OrderedMap String Json} {i j : Nat} {rest : Chain}
variable {token : Token}

/-- What a node tells of the answer to a site under a condition: an observation
was answered with its own value, and what is held fixed with the fixed value. -/
structure Tells (data : OrderedMap String Json) (site : Site) (node : TraceNode) :
    Prop where
  own : ∀ v, site.observed = some v → node.value = v
  held : site.observed = none → ∀ w, data.get? site.name = some w → node.value = w

/-- **An inquiry whose execution a trace tells**: what it asked for is there, and
so it succeeded. -/
def Follows (data : OrderedMap String Json) (t : Trace) : Inquiry σ → Prop
  | .finish outcome _ => outcome = .value ()
  | .ask site next => ∃ node, t.get? site.name = some node ∧ Tells data site node
    ∧ (next (.value node.value)).Follows data t

/-- **A draw that comes to a value** is recorded with it, and what was recorded
stays. -/
theorem draw_told (hrest : Candid rest.draw) {site : Site} {s : Shared} {v : Json}
    {out : Reply × Shared}
    (hout : (⟨.link i .recorder (.link j (.condition data) rest), token⟩ : Context).draw
      site s = out) (hv : out.1 = .value v) :
    (out.2.trace i).get? site.name = some (site.node none v)
      ∧ Tells data site (site.node none v)
      ∧ ∀ y node, (s.trace i).get? y = some node → (out.2.trace i).get? y = some node := by
  unfold Context.draw at hout
  split at hout
  · subst hout
    cases hv
  · subst hout
    obtain ⟨hinner, hnew, htrace⟩ := Chain.recorded_draw hv
    have hcand : Candid (Chain.link j (.condition data) rest).draw :=
      Handler.candid_draw (h := .condition data) nofun hrest
    refine ⟨?_, ⟨fun w ho => hcand ho hinner, fun ho w hw => ?_⟩, fun y node hn => ?_⟩
    · rw [htrace, OrderedMap.get?_insert, if_pos rfl]
    · rw [Chain.draw_of_condition ho hw] at hv
      split at hv
      · cases hv
      · cases hv
        rfl
    · have hne : site.name ≠ y := by
        intro he
        rw [he, OrderedMap.contains_eq_false_iff, hn] at hnew
        cases hnew
      rw [htrace, OrderedMap.get?_insert, if_neg hne]
      exact hn

/-- **A successful execution is told by the trace that it records.** -/
theorem follows_run (hrest : Candid rest.draw) {q : Inquiry σ} (hq : q.FailsFast) {s : Shared}
    {out : Ending σ × Shared}
    (hout : (q.through
      ⟨.link i .recorder (.link j (.condition data) rest), token⟩).run s = out)
    (hv : out.1.1 = .value ()) :
    q.Follows data (out.2.trace i)
      ∧ ∀ y node, (s.trace i).get? y = some node → (out.2.trace i).get? y = some node := by
  induction q generalizing s with
  | finish outcome locals =>
    subst hout
    exact ⟨hv, fun y node hn => hn⟩
  | ask site next ih =>
    obtain ⟨v, hvalue, -, hrun⟩ := hq.exists_value (hout ▸ hv)
    obtain ⟨hrecorded, htells, hkept⟩ := draw_told hrest rfl hvalue
    obtain ⟨hfollows, hkept'⟩ := ih (.value v) (hq.2 _) (hrun.symm.trans hout)
    exact ⟨⟨site.node none v, hkept' _ _ hrecorded, htells, hfollows⟩,
      fun y node hn => hkept' y node (hkept y node hn)⟩

/-- **A trace that has what another tells** replays the inquiry. The values that
it need not have are those of observations. -/
theorem Follows.replays {q : Inquiry σ} {t t' : Trace} (h : q.Follows data t)
    (hin : ∀ y node, t.get? y = some node → t'.contains y = true)
    (hval : ∀ y node, t.get? y = some node →
      (∀ w, data.get? y = some w → node.value = w) →
      t'.assignment.get? y = some node.value) : q.Replays t' := by
  induction q with
  | finish outcome locals => exact h
  | ask site next ih =>
    obtain ⟨node, hn, htells, hnext⟩ := h
    refine ⟨hin _ _ hn, node.value, ?_, ih _ hnext⟩
    unfold answerOf
    cases ho : site.observed with
    | some v => exact congrArg some (htells.own v ho).symm
    | none => exact hval _ _ hn (htells.held ho)

end Inquiry

/-! ## The run -/

/-- What is held fixed for a unit has its value from the trace. -/
theorem Run.exists_node_of_others {r : Run} {site y : String} {w : Json}
    (h : (r.others site).get? y = some w) :
    ∃ node, r.trace.get? y = some node ∧ node.value = w := by
  rw [Run.others, OrderedMap.get?_filterKeys, Trace.assignment, OrderedMap.get?_map] at h
  split at h
  · exact Option.map_eq_some_iff.mp h
  · cases h

/-- A trace into which a unit has brought what it did not hold fixed. -/
theorem WorkUnit.get?_insertAll_free (u : WorkUnit) (t t' : Trace) (y : String) :
    (t'.insertAll (u.free t).entries).get? y
      = if u.fixed.contains y then t'.get? y else (t.get? y).or (t'.get? y) := by
  rw [OrderedMap.get?_insertAll, WorkUnit.free, OrderedMap.get?_filterKeys]
  cases u.fixed.contains y <;> rfl

namespace Sampler

variable {σ : Type} {g : Sampler σ} {steps : Nat} {s : Shared} {q : Inquiry σ}

/-- **The trace of the prior pass replays the program.** -/
theorem replays_prior (hbase : g.base.IsCandid) (hmodel : ∀ x c, g.model x c = q.through c)
    (hq : q.FailsFast) {t : Trace} {s' : Shared} (h : g.Begins s t s') : q.Replays t := by
  have hrest : (Chain.link s.next (.thread false) g.base).IsCandid := ⟨nofun, hbase⟩
  have hexec : (q.through (g.priorContext s.next)).run (g.priorStart s)
      = g.priorExecution s := by
    unfold priorExecution priorProgram
    rw [hmodel]
  have hfollows := (Inquiry.follows_run hrest.draw hq hexec h.outcome).1
  rw [h.trace]
  refine hfollows.replays (fun y node hn => OrderedMap.contains_iff.mpr ⟨node, hn⟩) ?_
  intro y node hn _
  unfold Trace.assignment
  rw [OrderedMap.get?_map, hn]
  rfl

/-- **The trace after a unit replays the program**: what the unit asked for was
fixed at its value in the trace, or has been brought back. -/
theorem replays_unit {job : Job σ} (hbase : job.base.IsCandid)
    (hmodel : ∀ x c, job.model x c = q.through c) (hq : q.FailsFast) {u : WorkUnit} {r : Run}
    (hfix : u.fixed = r.others u.site) {nodes : Trace}
    (hok : (u.resample job r.executions r.shared).1 = .ok nodes) :
    q.Replays (r.trace.insertAll nodes.entries) := by
  obtain ⟨hout, hnodes⟩ := WorkUnit.resample_eq_ok hok
  have hrest : (Chain.branch (r.shared.next + 3) (selectSite u.site)
      (u.alternate job.base r.shared.next)
      (.link (r.shared.next + 2) (.thread false) job.base)).IsCandid :=
    ⟨⟨nofun, nofun, hbase⟩, nofun, hbase⟩
  have hexec : (q.through (u.context job.base r.shared.next)).run (u.prepare r.shared)
      = u.execution job r.executions r.shared := by
    unfold WorkUnit.execution WorkUnit.program
    rw [hmodel]
  have hfollows := (Inquiry.follows_run hrest.draw hq hexec hout).1
  generalize (u.execution job r.executions r.shared).2.trace (r.shared.next + 5) = t
    at hfollows hnodes
  have hfixed : ∀ y w, u.fixed.get? y = some w →
      ∃ node, r.trace.get? y = some node ∧ node.value = w :=
    fun y w hw => Run.exists_node_of_others (hfix ▸ hw)
  subst hnodes
  refine hfollows.replays (fun y node hn => ?_) fun y node hn hw => ?_
  · rw [OrderedMap.contains_iff]
    cases hc : u.fixed.contains y with
    | true =>
      obtain ⟨w, hw⟩ := OrderedMap.contains_iff.mp hc
      obtain ⟨node', hn', -⟩ := hfixed y w hw
      exact ⟨node', by rw [u.get?_insertAll_free, hc]; exact hn'⟩
    | false => exact ⟨node, by rw [u.get?_insertAll_free, hc, hn]; rfl⟩
  · unfold Trace.assignment
    rw [OrderedMap.get?_map, u.get?_insertAll_free]
    cases hc : u.fixed.contains y with
    | true =>
      obtain ⟨w, hfw⟩ := OrderedMap.contains_iff.mp hc
      obtain ⟨node', hn', rfl⟩ := hfixed y w hfw
      rw [if_pos rfl, hn', hw _ hfw]
      rfl
    | false =>
      rw [if_neg Bool.false_ne_true, hn]
      rfl

/-- **Every run that is reached has a trace that replays the program**, if one
site is resampled at a time. -/
theorem Reaches.replays (hdep : g.settings.dependencies = .complete)
    (hbase : g.base.IsCandid) (hmodel : ∀ x c, g.model x c = q.through c)
    (hq : q.FailsFast) {r : Run} (h : g.Reaches steps s r) : q.Replays r.trace := by
  induction h with
  | first begins => exact replays_prior hbase hmodel hq begins
  | @turn r u rest before front ih =>
    obtain ⟨-, hfix, -⟩ := (Executes.intro before front).solo hdep
    rw [(g.job.received_receive u _).trace]
    unfold Run.traceAfter
    split
    · next nodes hok => exact replays_unit hbase hmodel hq hfix hok
    · rw [← Job.trace_launched g.job r] at ih
      exact ih

/-- **A trace on which the program can be replayed**: over a replay of the trace
it succeeds, and leaves the state alone; it asks for no site that the trace does
not have, and every draw is answered with the value from there. -/
def CanReplay (g : Sampler σ) (t : Trace) : Prop :=
  ∀ (x : Execution) (id : Nat) (token : Token) (s : Shared), s.isCancelled token = false →
    let p := g.model x (Inquiry.replaying t id token)
    ((p.run s).1.1 = .value () ∧ (p.run s).2 = s)
      ∧ ∀ a ∈ p.transcript s, t.contains a.1.name = true ∧ (a.1.observed = none →
        ∃ node, t.get? a.1.name = some node ∧ a.2 = .value node.value)

/-- **The shared trace can be replayed** after the prior pass, after every unit,
and when the call is over, for every program that only asks and fails at its
first failing draw. -/
theorem canReplay_trace (g : Sampler σ) (steps : Nat) (s : Shared)
    (hdep : g.settings.dependencies = .complete) (hbase : g.base.IsCandid) (q : Inquiry σ)
    (hmodel : ∀ x c, g.model x c = q.through c) (hq : q.FailsFast) :
    (∀ r, g.Reaches steps s r → g.CanReplay r.trace)
      ∧ ∀ t s', g.Begins s t s' → g.CanReplay (g.sample steps s).2.1.trace := by
  have hreach : ∀ r, g.Reaches steps s r → g.CanReplay r.trace := by
    intro r h x id token s' ht
    rw [hmodel]
    exact Inquiry.replay_run (h.replays hdep hbase hmodel hq) id ht
  refine ⟨hreach, fun t s' h => ?_⟩
  obtain ⟨r, hr, htrace⟩ := exists_reaches_sample (n := steps) h
  rw [htrace]
  exact hreach r hr

/-- An inquiry that asks for a second site if the first has a certain value. -/
def sprouting : Inquiry Unit :=
  .need (.drawn "x" .ofDepth) fun v =>
    if v.nat? = some 3 then .need (.drawn "y" .ofDepth) fun _ => .finish (.value ()) ()
    else .finish (.value ()) ()

theorem sprouting_failsFast : sprouting.FailsFast := by
  refine Inquiry.failsFast_need fun v => ?_
  split
  · exact Inquiry.failsFast_need fun _ => trivial
  · trivial

/-- A sampler whose second site comes into existence when the first is
resampled. -/
def sprout : Sampler Unit := .small (fun _ c => sprouting.through c) []

theorem canReplay_sprout :
    (∀ r, sprout.Reaches 2 .small r → sprout.CanReplay r.trace)
      ∧ ∀ t s', sprout.Begins .small t s' →
        sprout.CanReplay (sprout.sample 2 .small).2.1.trace :=
  canReplay_trace sprout 2 .small rfl ⟨nofun, trivial⟩ sprouting (fun _ _ => rfl)
    sprouting_failsFast

example : (sprout.sample 0 .small).2.1.trace.keys = ["x"]
    ∧ (sprout.sample 1 .small).2.1.trace.keys = ["x", "y"] := by decide +kernel

end Sampler

end Resampler
