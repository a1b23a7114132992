import Resampler.Proofs.Sampler.Completeness

/-!
# Steps for sites that are not there

Which sites a program visits may depend on the values of others, so a site that has been
discovered may be gone after the next step, and come back later. Sites that appear join
the schedule; but no site ever leaves it. A site that is gone still has its turn: a unit is
started for it and taken back, the step is counted, and all that the step has changed is
the count.

So a step that is counted has resampled its site just if the execution has come to it
(`Sampler.SpendsStep`). If one site is resampled at a time, and the program does nothing but
ask, that can be told from the shared trace: it is so if the program comes to the site when
it is replayed on the trace as it stands (`Inquiry.Visits`). For all other sites are held
fixed at their values there, so that up to its site the execution of a unit is that replay.
-/

namespace Resampler

variable {σ : Type}

/-- **A site that a program does not ask for is not recorded**, whatever it draws
through. -/
theorem Program.get?_trace_of_unasked {p : Program σ} {s : Shared} {y : String}
    (h : ∀ a ∈ p.transcript s, a.1.name ≠ y) (i : Nat) :
    ((p.run s).2.trace i).get? y = (s.trace i).get? y := by
  induction p generalizing s with
  | finish outcome locals => rfl
  | draw context site next ih =>
    rw [transcript] at h
    have hne : y ≠ site.name := (h _ List.mem_cons_self).symm
    have hdraw : ((context.draw site s).2.trace i).get? y = (s.trace i).get? y := by
      unfold Context.draw
      split
      · rfl
      · exact context.chain.get?_trace_draw site none s i hne
    rw [run_draw, ih _ fun a ha => h a (List.mem_cons_of_mem _ ha), hdraw]
  | scope context layer body next ihb ihn =>
    by_cases ha : context.admits s layer = true
    · rw [transcript_scope_of_admits ha] at h
      rw [run_scope_of_admits ha, ihn _ fun a hm => h a (List.mem_append_right _ hm)]
      exact ihb _ (s := s.install layer.id) fun a hm => h a (List.mem_append_left _ hm)
    · rw [transcript_scope_of_not_admits ha] at h
      rw [run_scope_of_not_admits ha, ihn _ h]
  | cancel token next ih => exact ih (s := s.cancel token) h

namespace Inquiry

variable {data : OrderedMap String Json} {i j : Nat} {rest : Chain} {token : Token}
variable {q : Inquiry σ} {t : Trace} {y : String} {s : Shared}

/-- **An inquiry that comes to a site** when it is answered from a trace. -/
def Visits (t : Trace) (y : String) : Inquiry σ → Prop
  | .finish _ _ => False
  | .ask site next =>
    site.name = y ∨ ∃ v, answerOf t site = some v ∧ (next (.value v)).Visits t y

/-- What an inquiry draws through under a condition. -/
def conditioning (i j : Nat) (data : OrderedMap String Json) (rest : Chain)
    (token : Token) : Context :=
  ⟨.link i .recorder (.link j (.condition data) rest), token⟩

/-- **What an inquiry that succeeds has asked for is recorded**, with the answer that it
got. -/
theorem get?_trace_of_asked (hrest : Candid rest.draw) (hq : q.FailsFast)
    (hv : ((q.through (conditioning i j data rest token)).run s).1.1 = .value ()) :
    ∀ a ∈ (q.through (conditioning i j data rest token)).transcript s, ∃ v, a.2 = .value v
      ∧ (((q.through (conditioning i j data rest token)).run s).2.trace i).get? a.1.name
        = some (a.1.node none v) := by
  induction q generalizing s with
  | finish outcome locals => exact fun a ha => nomatch ha
  | ask site next ih =>
    obtain ⟨v, hvalue, hnext, hrun⟩ := hq.exists_value hv
    have htranscript : ((ask site next).through (conditioning i j data rest token)).transcript s
        = (site, .value v)
          :: ((next (.value v)).through (conditioning i j data rest token)).transcript
            ((conditioning i j data rest token).draw site s).2 := by
      rw [through, Program.transcript, hvalue]
    rw [htranscript, hrun]
    intro a ha
    rcases List.mem_cons.mp ha with rfl | ha
    · obtain ⟨hrecorded, -, -⟩ := draw_told hrest rfl hvalue
      have hkept := (follows_run hrest (hq.2 (.value v)) rfl hnext).2
      exact ⟨v, rfl, hkept _ _ hrecorded⟩
    · exact ih (.value v) (hq.2 _) hnext a ha

/-- **Up to a site that is not held fixed, an execution is a replay**: it comes to the site,
and records it, just if the replay does. -/
theorem isSome_get?_trace_iff (hrest : Candid rest.draw) (hq : q.FailsFast) (hreplays : q.Replays t)
    (hdata : ∀ z, z ≠ y → data.get? z = t.assignment.get? z)
    (hnew : (s.trace i).get? y = none)
    (hv : ((q.through (conditioning i j data rest token)).run s).1.1 = .value ()) :
    ((((q.through (conditioning i j data rest token)).run s).2.trace i).get? y).isSome = true
      ↔ q.Visits t y := by
  induction q generalizing s with
  | finish outcome locals =>
    rw [show ((((finish outcome locals).through (conditioning i j data rest token)).run s).2.trace
      i).get? y = none from hnew]
    exact ⟨nofun, nofun⟩
  | ask site next ih =>
    obtain ⟨v, hvalue, hnext, hrun⟩ := hq.exists_value hv
    obtain ⟨-, w, hanswer, hagain⟩ := hreplays
    obtain ⟨hrecorded, htells, -⟩ := draw_told hrest rfl hvalue
    rw [hrun]
    by_cases hname : site.name = y
    · have hkept := (follows_run hrest (hq.2 (.value v)) rfl hnext).2 _ _ hrecorded
      subst hname
      exact ⟨fun _ => .inl rfl, fun _ => Option.isSome_iff_exists.mpr ⟨_, hkept⟩⟩
    · -- Another site is answered as in the replay: an observation, or a value held fixed.
      have hsame : v = w := by
        unfold answerOf at hanswer
        cases ho : site.observed with
        | some o =>
          rw [ho] at hanswer
          cases hanswer
          exact htells.own _ ho
        | none =>
          rw [ho] at hanswer
          exact htells.held ho w ((hdata _ hname).trans hanswer)
      subst hsame
      have hstill : (((conditioning i j data rest token).draw site s).2.trace i).get? y = none := by
        unfold Context.draw
        split
        · exact hnew
        · rw [Chain.get?_trace_draw _ _ _ _ _ (Ne.symm hname), hnew]
      rw [ih (.value v) (hq.2 _) hagain hstill hnext]
      refine ⟨fun h => .inr ⟨v, hanswer, h⟩, fun h => ?_⟩
      rcases h with h | ⟨v', hv', h⟩
      · exact absurd h hname
      · cases hanswer.symm.trans hv'
        exact h

end Inquiry

/-! ## What a step is spent on -/

namespace Sampler

/-- **What a step is spent on** that a unit completes, given what it brings back. -/
structure SpendsStep (g : Sampler σ) (u : WorkUnit) (r : Run) (nodes : Trace) : Prop where
  /-- The step is counted for the site of the unit, and for no other. -/
  counted : ∀ y, (g.job.receive u r).schedule.count y
    = r.schedule.count y + if u.site = y then 1 else 0
  /-- No site leaves the schedule. -/
  stays : ∀ y ∈ r.schedule.latent, y ∈ (g.job.receive u r).schedule.latent
  /-- If the site is brought back, the execution has asked for it, and what it got takes the
  place of the node in the trace. -/
  drawn : ∀ node, nodes.get? u.site = some node →
    (∃ a ∈ u.transcript g.job r.executions r.shared, a.1.name = u.site)
      ∧ (g.job.receive u r).trace.get? u.site = some node
  /-- If it is not, the node stays as it is. -/
  absent : nodes.get? u.site = none →
    (g.job.receive u r).trace.get? u.site = r.trace.get? u.site
  /-- A program that only asks and fails at its first failing draw brings the site back just
  if it comes to it when it is replayed on the trace; and if it asks for the site, what it
  brings back is that draw. -/
  asked : ∀ q : Inquiry σ, (∀ x c, g.model x c = q.through c) → q.FailsFast → g.base.IsCandid →
    (nodes.contains u.site = true ↔ q.Visits r.trace u.site)
      ∧ ∀ a ∈ u.transcript g.job r.executions r.shared, a.1.name = u.site →
        ∃ v, a.2 = .value v ∧ nodes.get? u.site = some (a.1.node none v)

/-- **What taking a unit back spends.** -/
structure Spends (g : Sampler σ) (u : WorkUnit) (r : Run) : Prop where
  /-- A unit that completes spends a step. -/
  completed : ∀ nodes, (u.resample g.job r.executions r.shared).1 = .ok nodes →
    g.SpendsStep u r nodes
  /-- A unit that does not is not counted, and leaves the trace alone. -/
  failed : ∀ e, (u.resample g.job r.executions r.shared).1 = .error e →
    (∀ y, (g.job.receive u r).schedule.count y = r.schedule.count y)
      ∧ (g.job.receive u r).trace = r.trace

variable {g : Sampler σ} {steps : Nat} {s : Shared} {u : WorkUnit} {r : Run}

/-- The trace from which a unit is executed is one on which the program can be replayed. -/
theorem Executes.replays (hdep : g.settings.dependencies = .complete) (hbase : g.base.IsCandid)
    {q : Inquiry σ} (hmodel : ∀ x c, g.model x c = q.through c) (hq : q.FailsFast)
    (h : g.Executes steps s u r) : q.Replays r.trace := by
  cases h with
  | @intro r₀ _ rest before front =>
    have hreplays := before.replays hdep hbase hmodel hq
    rwa [← Job.trace_launched g.job r₀] at hreplays

/-- What is in flight is latent, and the site of the unit that is executed is in flight. -/
theorem Executes.tallies (h : g.Executes steps s u r) :
    r.schedule.Tallies ∧ u.site ∈ r.schedule.inFlight := by
  cases h with
  | @intro r₀ _ rest before front =>
    have haligned := (g.job.isInvariant_aligned (.declared g.settings.dependencies)).launched
      before.isAligned
    refine ⟨haligned.tallies, ?_⟩
    show u.site ∈ (g.job.launched r₀).schedule.inFlight
    rw [haligned.flight, front]
    exact List.mem_cons_self

/-- **What a unit brings back of its site** is what its recorder has of it, for the site is
not held fixed. -/
theorem get?_nodes {job : Job σ} (hfix : u.fixed = r.others u.site) {nodes : Trace}
    (hok : (u.resample job r.executions r.shared).1 = .ok nodes) :
    nodes.get? u.site
      = ((u.execution job r.executions r.shared).2.trace (r.shared.next + 5)).get? u.site := by
  have hfree : u.fixed.contains u.site = false := by
    rw [hfix, Run.others, OrderedMap.contains, OrderedMap.get?_filterKeys, decide_eq_true rfl]
    rfl
  rw [(WorkUnit.resample_eq_ok hok).2, WorkUnit.free, OrderedMap.get?_filterKeys, hfree]
  rfl

/-- At the start of a unit nothing is recorded. -/
theorem get?_trace_prepare (u : WorkUnit) (s : Shared) (y : String) :
    ((u.prepare s).trace (s.next + 5)).get? y = none := by
  rw [WorkUnit.prepare, Shared.trace_setTrace, if_pos rfl]
  rfl

/-- **What a unit does not ask for it does not bring back.** -/
theorem exists_asked_of_get?_nodes {job : Job σ} (hfix : u.fixed = r.others u.site)
    {nodes : Trace} (hok : (u.resample job r.executions r.shared).1 = .ok nodes)
    {node : TraceNode} (hn : nodes.get? u.site = some node) :
    ∃ a ∈ u.transcript job r.executions r.shared, a.1.name = u.site := by
  by_contra hno
  have hunasked := Program.get?_trace_of_unasked
    (p := u.program job r.executions r.shared.next) (s := u.prepare r.shared)
    (fun a ha he => hno ⟨a, ha, he⟩) (r.shared.next + 5)
  rw [get?_trace_prepare] at hunasked
  rw [get?_nodes hfix hok] at hn
  cases hn.symm.trans hunasked

/-- **A unit of a program that only asks** brings its site back just if the program comes to
it on the trace. -/
theorem Executes.brings_iff (hdep : g.settings.dependencies = .complete)
    (hbase : g.base.IsCandid) {q : Inquiry σ} (hmodel : ∀ x c, g.model x c = q.through c)
    (hq : q.FailsFast) (h : g.Executes steps s u r) {nodes : Trace}
    (hok : (u.resample g.job r.executions r.shared).1 = .ok nodes) :
    (nodes.contains u.site = true ↔ q.Visits r.trace u.site)
      ∧ ∀ a ∈ u.transcript g.job r.executions r.shared, a.1.name = u.site →
        ∃ v, a.2 = .value v ∧ nodes.get? u.site = some (a.1.node none v) := by
  obtain ⟨-, hfix, -⟩ := h.solo hdep
  let n := r.shared.next
  let beneath : Chain := .branch (n + 3) (selectSite u.site) (u.alternate g.base n)
    (.link (n + 2) (.thread false) g.base)
  let c : Context := Inquiry.conditioning (n + 5) (n + 4) u.fixed beneath u.token
  have hprogram : u.program g.job r.executions n = q.through c := hmodel _ _
  have hcandid : beneath.IsCandid := ⟨⟨nofun, nofun, hbase⟩, nofun, hbase⟩
  have hdata : ∀ z, z ≠ u.site → u.fixed.get? z = r.trace.assignment.get? z := by
    intro z hz
    rw [hfix, Run.others, OrderedMap.get?_filterKeys, decide_eq_false hz]
    rfl
  have hout := (WorkUnit.resample_eq_ok hok).1
  have hback := get?_nodes hfix hok
  rw [OrderedMap.contains, hback]
  unfold WorkUnit.execution at hout ⊢
  unfold WorkUnit.transcript
  rw [hprogram] at hout ⊢
  refine ⟨Inquiry.isSome_get?_trace_iff hcandid.draw hq (h.replays hdep hbase hmodel hq) hdata
    (get?_trace_prepare u r.shared u.site) hout, fun a ha hname => ?_⟩
  rw [← hname]
  exact Inquiry.get?_trace_of_asked hcandid.draw hq hout a ha

/-- **Every completed unit spends a step on its site**, which it has resampled if the
execution has come to it, and which stays as it is if not. -/
theorem spends_of_executes (hdep : g.settings.dependencies = .complete)
    (h : g.Executes steps s u r) : g.Spends u r := by
  obtain ⟨-, hfix, -⟩ := h.solo hdep
  obtain ⟨htallies, hflight⟩ := h.tallies
  have hsettle : g.job.receive u r = Run.settle { r with
      executions := r.executions + 1
      shared := (u.resample g.job r.executions r.shared).2 } u.site
        (u.resample g.job r.executions r.shared).1 := rfl
  refine ⟨fun nodes hok => ?_, fun e herror => ?_⟩
  · rw [hok] at hsettle
    have htrace : (g.job.receive u r).trace = r.trace.insertAll nodes.entries := by
      rw [hsettle, Run.settle_ok]
    have hmerged := OrderedMap.get?_insertAll r.trace nodes u.site
    rw [← htrace] at hmerged
    refine ⟨fun y => ?_, fun y hy => ?_, fun node hn => ⟨?_, ?_⟩, fun hn => ?_, fun q hmodel hq
      hbase => h.brings_iff hdep hbase hmodel hq hok⟩
    · rw [hsettle, Run.count_settle_ok (by exact htallies) (by exact hflight)]
    · rw [hsettle, Run.settle_ok]
      show y ∈ ((nodes.entries.foldl Run.join r.schedule).finish u.site).latent
      rw [Schedule.latent_finish, (Run.joins_foldl_join nodes.entries htallies).latent]
      exact Schedule.mem_foldl_addNew_of_mem (.inl hy)
    · exact exists_asked_of_get?_nodes hfix hok hn
    · rw [hmerged, hn]
      rfl
    · rw [hmerged, hn]
      rfl
  · rw [herror] at hsettle
    rw [hsettle]
    rcases Run.settle_error { r with
      executions := r.executions + 1
      shared := (u.resample g.job r.executions r.shared).2 } u.site e with he | he
    all_goals
      rw [he]
      exact ⟨fun _ => rfl, rfl⟩

/-- An inquiry that asks for a second site as long as the first has a certain value. -/
def wilting : Inquiry Unit :=
  .need (.drawn "x" .ofDepth) fun v =>
    if v.nat? = some 2 then .need (.drawn "y" .ofDepth) fun _ => .finish (.value ()) ()
    else .finish (.value ()) ()

/-- A sampler whose second site is gone when the first has been resampled. -/
def wilt : Sampler Unit := .small (fun _ c => wilting.through c) []

/-- The unit at a stage of a call with three steps, and the run in which it is executed. -/
def wiltAt (k : Nat) : Option (WorkUnit × Run) :=
  (wilt.job.launched (wilt.stage 3 .small k)).queue.head?.map fun u =>
    (u, { wilt.job.launched (wilt.stage 3 .small k) with
      queue := (wilt.job.launched (wilt.stage 3 .small k)).queue.tail })

theorem executes_of_wiltAt {k : Nat} {u : WorkUnit} {r : Run} (h : wiltAt k = some (u, r)) :
    wilt.Executes 3 .small u r := by
  obtain ⟨u', hu, he⟩ := Option.map_eq_some_iff.mp h
  cases he
  exact executes_stage (by decide +kernel) (by decide +kernel) hu

/-- What a unit of this sampler is for, what it asks for, whether it brings its site back,
and the count of the site before and after it. -/
def wiltSteps (p : WorkUnit × Run) : String × List String × Option Bool × Nat × Nat :=
  let (u, r) := p
  (u.site, (u.transcript wilt.job r.executions r.shared).map fun a => a.1.name,
    (u.resample wilt.job r.executions r.shared).1.toOption.map (·.contains u.site),
    r.schedule.count u.site, (wilt.job.receive u r).schedule.count u.site)

/-- The first unit, for the second site, brings it back. -/
theorem spends_wilt : wilt.settings.dependencies = .complete
    ∧ ∃ u r nodes, wilt.Executes 3 .small u r ∧ wilt.Spends u r
      ∧ (u.resample wilt.job r.executions r.shared).1 = .ok nodes
      ∧ nodes.contains u.site = true := by
  have hat : (wiltAt 0).map wiltSteps = some ("y", ["x", "y"], some true, 0, 1) := by
    decide +kernel
  obtain ⟨⟨u, r⟩, hu, hsteps⟩ := Option.map_eq_some_iff.mp hat
  have hback := congrArg (fun p => p.2.2.1) hsteps
  change (u.resample wilt.job r.executions r.shared).1.toOption.map _ = some true at hback
  have hexec := executes_of_wiltAt hu
  cases hres : (u.resample wilt.job r.executions r.shared).1 with
  | error e =>
    rw [hres] at hback
    cases hback
  | ok nodes =>
    rw [hres] at hback
    exact ⟨rfl, u, r, nodes, hexec, spends_of_executes rfl hexec, hres, Option.some.inj hback⟩

/-- **A step is counted for a site that is gone.** The second unit resamples the first site,
and with its new value the second one is not asked for. The third unit is for that site; it
does not ask for it, the count goes up, and the node is what it was. -/
theorem exists_step_undrawn : wilt.settings.dependencies = .complete
    ∧ ∃ u r, wilt.Executes 3 .small u r
      ∧ (wilt.job.receive u r).schedule.count u.site = r.schedule.count u.site + 1
      ∧ (∀ a ∈ u.transcript wilt.job r.executions r.shared, a.1.name ≠ u.site)
      ∧ (wilt.job.receive u r).trace.get? u.site = r.trace.get? u.site := by
  have hat : (wiltAt 2).map wiltSteps = some ("y", ["x"], some false, 1, 2) := by
    decide +kernel
  obtain ⟨⟨u, r⟩, hu, hsteps⟩ := Option.map_eq_some_iff.mp hat
  simp only [wiltSteps, Prod.mk.injEq] at hsteps
  obtain ⟨hsite, hnames, hback, hbefore, hafter⟩ := hsteps
  refine ⟨rfl, u, r, executes_of_wiltAt hu, by rw [hafter, hbefore], fun a ha => ?_, ?_⟩
  · have hname := List.mem_map_of_mem (f := fun a : Site × Reply => a.1.name) ha
    rw [hnames, List.mem_singleton] at hname
    rw [hname, hsite]
    decide
  · rw [(wilt.job.received_receive u r).trace]
    unfold Run.traceAfter
    split
    · next nodes hres =>
      rw [hres] at hback
      have habsent := OrderedMap.contains_eq_false_iff.mp (Option.some.inj hback)
      rw [OrderedMap.get?_insertAll, habsent]
      rfl
    · rfl

/-- The site that is gone has its turns, and its last value in the answer. -/
example : (wilt.sample 3 .small).2.1.counts.entries = [("x", 1), ("y", 2)]
    ∧ (wilt.sample 3 .small).2.1.trace.keys = ["x", "y"] := by decide +kernel

end Sampler

end Resampler
