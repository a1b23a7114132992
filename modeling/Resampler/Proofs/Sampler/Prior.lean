import Resampler.Proofs.Chain.Regime
import Resampler.Proofs.Sampler.Course

/-!
# Resampling from the prior

The default local posterior reads the distribution of a site from the shared
trace, where it was put when the site was last recorded. A unit for the site
records the distribution that the program passes in that execution. The two
differ if the distribution depends on sites that have been resampled since, for
a unit brings back its own site and the sites that are new, and leaves the
nodes of all others as they are.

So what a unit records is a sample of the distribution in the trace that it
started from, under the deeper half of its site key, and the next unit of the
site is the first to see the distribution that is recorded with it. That is
shown here for the chain of a unit over one standard interpreter, and for all
programs that stop at their first failing draw, with any instances of their own
laid over that chain.
-/

namespace Resampler

/-- **Programs that work on top of the chain they are given**: whatever they
draw through is laid over it, and their own instances spare it. -/
def Program.StaysOver {σ : Type} (p : Program σ) (c : Chain) : Prop :=
  p.Within fun c' _ => Chain.LaidOver c c.Spares c'.chain

/-! ## Under the recorder of a unit -/

namespace Handler

/-- A standard interpreter leaves keys and traces alone. -/
theorem drawStandard_frame (id : Nat) (detectReuse : Bool) (site : Site)
    (key : Option RandomKey) (s : Shared) :
    (drawStandard id detectReuse site key s).2.held = s.held
      ∧ (drawStandard id detectReuse site key s).2.traces = s.traces := by
  unfold drawStandard
  split
  · exact ⟨rfl, rfl⟩
  · exact ⟨rfl, rfl⟩
  · split
    · split
      · exact ⟨rfl, rfl⟩
      · exact ⟨rfl, rfl⟩
    · exact ⟨rfl, rfl⟩

/-- What a standard interpreter answers a draw is what the distribution answers
its key. -/
theorem sample_of_drawStandard {id : Nat} {detectReuse : Bool} {site : Site}
    {k : RandomKey} {s : Shared} {v : Json} (ho : site.observed = none)
    (h : (drawStandard id detectReuse site (some k) s).1 = .value v) :
    site.sample k = .value v := by
  have hask : site.ask k = .value v := by
    unfold drawStandard at h
    rw [ho] at h
    dsimp only at h
    split at h
    · split at h
      · cases h
      · exact h
    · exact h
  unfold Site.ask at hask
  cases hs : site.sample k with
  | value w =>
    rw [hs] at hask
    cases hask
    rfl
  | failure e =>
    rw [hs] at hask
    cases hask
  | panic payload =>
    rw [hs] at hask
    cases hask

end Handler

namespace WorkUnit

variable {u : WorkUnit} {n b : Nat} {d : Bool}

/-- The chain of a unit without its recorder. -/
def covered (u : WorkUnit) (base : Chain) (n : Nat) : Chain :=
  .link (n + 4) (.condition u.fixed)
    (.branch (n + 3) (selectSite u.site) (u.alternate base n)
      (.link (n + 2) (.thread false) base))

theorem chain_eq (u : WorkUnit) (base : Chain) (n : Nat) :
    u.chain base n = .link (n + 5) .recorder (u.covered base n) := rfl

/-- On the branch of its site a unit asks its own posterior. -/
theorem alternate_draw (site : Site) (key : Option RandomKey) (s : Shared)
    {out : Reply × Shared}
    (h : (u.alternate (.link b (.standard d) .empty) n).draw site key s = out) :
    out.2.traces = s.traces ∧ (site.observed = none → ∀ v, out.1 = .value v →
      u.posterior.sample (key.getD (s.heldKey (n + 1)).deeper) = .value v) := by
  change Handler.drawThread (n + 1) false (fun site key s =>
    Handler.drawStandard b d { site with distribution := u.posterior } key s)
    site key s = out at h
  cases ho : site.observed with
  | some w =>
    rw [Handler.drawThread_of_keyed (.inl (by rw [ho]; rfl))] at h
    subst h
    exact ⟨(Handler.drawStandard_frame _ _ _ _ _).2, fun h => nomatch h⟩
  | none =>
    cases key with
    | some k =>
      rw [Handler.drawThread_of_keyed (.inr rfl)] at h
      subst h
      exact ⟨(Handler.drawStandard_frame _ _ _ _ _).2,
        fun _ v hv => Handler.sample_of_drawStandard (by exact ho) hv⟩
    | none =>
      rw [Handler.drawThread_of_unkeyed ho] at h
      subst h
      exact ⟨(Handler.drawStandard_frame _ _ _ _ _).2,
        fun _ v hv => Handler.sample_of_drawStandard (by exact ho) hv⟩

/-- **A draw under the recorder of a unit** records nothing. It leaves the key
of the site's thread alone if it is for another site, and asks the posterior if
it is for the site. -/
structure Covers (u : WorkUnit) (n : Nat) (site : Site) (key : Option RandomKey)
    (s : Shared) (out : Reply × Shared) : Prop where
  traces : out.2.traces = s.traces
  held : site.name ≠ u.site → out.2.heldKey (n + 1) = s.heldKey (n + 1)
  sampled : site.name = u.site → site.observed = none → ∀ v, out.1 = .value v →
    u.posterior.sample (key.getD (s.heldKey (n + 1)).deeper) = .value v

/-- The thread of the other sites has a key of its own. -/
theorem thread_draw (site : Site) (key : Option RandomKey) (s : Shared)
    {out : Reply × Shared}
    (h : (Chain.link (n + 2) (.thread false)
      (.link b (.standard d) .empty)).draw site key s = out) :
    out.2.traces = s.traces ∧ out.2.heldKey (n + 1) = s.heldKey (n + 1) := by
  change Handler.drawThread (n + 2) false (Handler.drawStandard b d)
    site key s = out at h
  unfold Handler.drawThread at h
  subst h
  have hframe := Handler.drawStandard_frame b d site
  split
  · exact ⟨(hframe key s).2, by rw [Shared.heldKey, (hframe key s).1]; rfl⟩
  · refine ⟨(hframe _ _).2, ?_⟩
    rw [Shared.heldKey, (hframe _ _).1]
    show (Shared.hold _ _ _).heldKey (n + 1) = _
    rw [Shared.heldKey_hold, if_neg (by omega)]

theorem covered_draw (hfix : u.fixed.get? u.site = none) (site : Site)
    (key : Option RandomKey) (s : Shared) :
    u.Covers n site key s
      ((u.covered (.link b (.standard d) .empty) n).draw site key s) := by
  show u.Covers n site key s (Handler.drawCondition u.fixed _ site key s)
  unfold Handler.drawCondition
  split
  · next ho hw =>
    refine ⟨rfl, fun _ => rfl, fun hname => ?_⟩
    rw [hname, hfix] at hw
    cases hw
  · by_cases hname : site.name = u.site
    · rw [Chain.draw_branch_of_selects (decide_eq_true hname)]
      obtain ⟨ht, hs⟩ := alternate_draw (u := u) (n := n) site key s rfl
      exact ⟨ht, fun hne => absurd hname hne, fun _ => hs⟩
    · rw [Chain.draw_branch_of_not_selects (decide_eq_false hname)]
      obtain ⟨ht, hh⟩ := thread_draw (n := n) (b := b) (d := d) site key s rfl
      exact ⟨ht, fun _ => hh, fun he => absurd he hname⟩

/-! ## What a unit records -/

/-- **What is recorded of the site is a sample of the posterior**, unless it is
an observation. -/
def Sampled (u : WorkUnit) (n : Nat) (s : Shared) : Prop :=
  ∀ node, (s.trace (n + 5)).get? u.site = some node → node.observed = false →
    u.posterior.sample (node.key.getD u.siteKey.deeper) = .value node.value

/-- As long as the site is not recorded, its thread still has the first key. -/
def Unspent (u : WorkUnit) (n : Nat) (s : Shared) : Prop :=
  (s.trace (n + 5)).contains u.site = false → s.heldKey (n + 1) = u.siteKey

/-- The regime of a unit. A draw of the site that fails may have moved the key
of its thread, so that the site is not sampled under the first one any more. -/
def regime (u : WorkUnit) (n : Nat) : Regime where
  admits _ _ := True
  before s := u.Sampled n s ∧ u.Unspent n s
  after := u.Sampled n
  fails _ := True
  after_of_before h := h.1
  fails_of_innocent _ := trivial
  fails_of_keyed _ := trivial

theorem isQuiet_sampled (u : WorkUnit) (n : Nat) : Program.IsQuiet (u.Sampled n) :=
  ⟨fun _ h => h, fun _ h => h, fun _ h => h⟩

theorem isQuiet_before (u : WorkUnit) (n : Nat) :
    Program.IsQuiet (u.regime n).before :=
  ⟨fun _ h => h, fun _ h => h, fun _ h => h⟩

/-- A value that is recorded of the site is a sample of the posterior under the
first key, for the site has not been recorded before. -/
theorem before_record {site : Site} {key : Option RandomKey} {s s' : Shared} {v : Json}
    (hcov : u.Covers n site key s (.value v, s')) (hJ : (u.regime n).before s)
    (hc : (s.trace (n + 5)).contains site.name = false) :
    (u.regime n).before
      (s'.setTrace (n + 5) ((s.trace (n + 5)).insert site.name (site.node key v))) := by
  show Sampled u n _ ∧ Unspent u n _
  unfold Sampled Unspent
  rw [Shared.trace_setTrace, if_pos rfl, OrderedMap.contains, OrderedMap.get?_insert]
  by_cases hname : site.name = u.site
  · -- The site itself: it is recorded now, so its key may be spent.
    rw [if_pos hname]
    refine ⟨fun node hn ho => ?_, fun h => by cases h⟩
    cases hn
    have hsite : site.observed = none := by
      cases hs : site.observed with
      | none => rfl
      | some w =>
        rw [Site.node, hs] at ho
        cases ho
    have hheld := hJ.2 (by rw [← hname]; exact hc)
    rw [← hheld]
    exact hcov.sampled hname hsite v rfl
  · rw [if_neg hname]
    exact ⟨hJ.1, fun h => (hcov.held hname).trans (hJ.2 h)⟩

/-- **The chain of a unit keeps its regime.** -/
theorem keeps_chain (hfix : u.fixed.get? u.site = none) :
    (u.regime n).Keeps (u.chain (.link b (.standard d) .empty) n).draw := by
  intro site key s _ hJ
  have hcov := covered_draw (n := n) (b := b) (d := d) hfix site key s
  rw [chain_eq]
  show (u.regime n).Fits (Handler.drawRecorder (n + 5) _ site key s)
  unfold Handler.drawRecorder
  generalize (u.covered (.link b (.standard d) .empty) n).draw site key s = out
    at hcov ⊢
  obtain ⟨reply, s'⟩ := out
  have htrace : s'.trace (n + 5) = s.trace (n + 5) := by
    unfold Shared.trace
    rw [hcov.traces]
  have hfail : u.Sampled n s' := by
    unfold Sampled
    rw [htrace]
    exact hJ.1
  by_cases hc : (s.trace (n + 5)).contains site.name = true
  · rw [if_pos hc]
    exact Regime.fits_of_after hJ.1 rfl fun _ _ => trivial
  · rw [if_neg hc]
    cases reply with
    | failure e => exact Regime.fits_of_after hfail rfl fun _ _ => trivial
    | panic p => exact Regime.fits_of_after hfail rfl fun _ _ => trivial
    | value v =>
      dsimp only
      rw [htrace, if_neg hc]
      have hJ' := before_record hcov hJ (Bool.eq_false_iff.mpr hc)
      exact ⟨hJ'.1, fun _ _ => hJ', fun _ _ => trivial⟩

/-- Instances that spare the chain of a unit tolerate its regime. -/
theorem tolerates_regime {base : Chain} {id : Nat} {h : Handler}
    (hs : (u.chain base n).Spares id h) : (u.regime n).Tolerates id h := by
  have hrec : n + 5 ∈ (u.chain base n).numbers := List.mem_cons_self
  have hthr : n + 1 ∈ (u.chain base n).numbers := by
    simp [chain, alternate, Chain.numbers]
  refine ⟨fun _ _ _ _ => trivial, fun _ hw hJ => ?_, fun _ hw hK => ?_,
    fun _ _ hJ => ⟨hJ, hJ⟩⟩
  · show Sampled u n _ ∧ Unspent u n _
    unfold Sampled Unspent
    rw [(hw.of_spares hs hrec).1, (hw.of_spares hs hthr).2]
    exact hJ
  · show Sampled u n _
    unfold Sampled
    rw [(hw.of_spares hs hrec).1]
    exact hK

/-- **An execution of a unit records a sample of its posterior for its site**, as
far as it records the site at all. -/
theorem sampled_execution {σ : Type} (job : Job σ) (index : Nat) (s : Shared)
    (hbase : job.base = .link b (.standard d) .empty)
    (hstops : ∀ x c, (job.model x c).Stops)
    (hover : ∀ x c, (job.model x c).StaysOver c.chain)
    (hfix : u.fixed.get? u.site = none) :
    u.Sampled s.next (u.execution job index s).2 := by
  refine (Program.Within.run_of_stops (isQuiet_before u s.next)
    (isQuiet_sampled u s.next) (fun h => h.1) ?_ (hover _ _) (hstops _ _ _) ?_).1
  · -- Whatever the program draws through keeps what the chain of the unit keeps.
    intro c site s' hlaid hJ
    have hkeep : (u.regime s.next).Keeps c.chain.draw := by
      refine Regime.keeps_of_laidOver tolerates_regime ?_ hlaid
      show (u.regime s.next).Keeps (u.chain job.base s.next).draw
      rw [hbase]
      exact keeps_chain hfix
    unfold Context.draw
    split
    · exact ⟨hJ.1, fun h => by cases h⟩
    · have hfit := hkeep site none s' trivial hJ
      refine ⟨hfit.after, fun h => ?_⟩
      obtain ⟨v, hv⟩ := Outcome.isValue_iff.mp h
      exact hfit.again v hv
  · show Sampled u s.next _ ∧ Unspent u s.next _
    unfold Sampled Unspent prepare
    rw [Shared.trace_setTrace, if_pos rfl]
    refine ⟨fun node hn => ?_, fun _ => ?_⟩
    · cases hn
    show (Shared.hold _ _ _).heldKey _ = _
    rw [Shared.heldKey_hold, if_neg (by omega), Shared.heldKey_hold, if_pos rfl]

end WorkUnit

/-! ## What a step puts into the trace -/

namespace Sampler

variable {σ : Type} {g : Sampler σ} {steps b : Nat} {d : Bool} {s : Shared}

/-- **Every completed unit samples the distribution of its site in the trace that
it started from**, under the deeper half of its site key, or under the key that
the program itself gave to the draw; and what it has sampled is in the trace
afterwards. -/
theorem Executes.sample_recorded (hdep : g.settings.dependencies = .complete)
    (hpost : g.posterior = .prior) (hbase : g.base = .link b (.standard d) .empty)
    (hstops : ∀ x c, (g.model x c).Stops)
    (hover : ∀ x c, (g.model x c).StaysOver c.chain) {u : WorkUnit} {r : Run}
    (h : g.Executes steps s u r) {nodes : Trace}
    (hok : (u.resample g.job r.executions r.shared).1 = .ok nodes) {node : TraceNode}
    (hn : nodes.get? u.site = some node) (ho : node.observed = false) :
    ∃ recorded, r.trace.get? u.site = some recorded
      ∧ recorded.distribution.sample (node.key.getD u.siteKey.deeper) = .value node.value
      ∧ (g.job.receive u r).trace.get? u.site = some node := by
  obtain ⟨-, hfix, hd⟩ := h.solo hdep
  have hnone : u.fixed.get? u.site = none := by
    rw [hfix, Run.others, OrderedMap.get?_filterKeys, decide_eq_true rfl]
    rfl
  have hsampled : u.posterior.sample (node.key.getD u.siteKey.deeper)
      = .value node.value := by
    refine WorkUnit.sampled_execution g.job r.executions r.shared hbase hstops hover
      hnone node ?_ ho
    rw [(WorkUnit.resample_eq_ok hok).2, WorkUnit.free, OrderedMap.get?_filterKeys,
      OrderedMap.contains, hnone] at hn
    exact hn
  have htrace : (g.job.receive u r).trace.get? u.site = some node := by
    rw [(g.job.received_receive u r).trace, hok]
    show (r.trace.insertAll nodes.entries).get? u.site = some node
    rw [OrderedMap.get?_insertAll, hn, Option.some_or]
  rw [hpost, Posterior.prior] at hd
  cases hr : r.trace.get? u.site with
  | none =>
    rw [hr] at hd
    cases hd
  | some recorded =>
    rw [hr] at hd
    rw [← Except.ok.inj hd] at hsampled
    exact ⟨recorded, rfl, hsampled, htrace⟩

/-- A sampler of two sites of which the second repeats the value of the first. -/
def echo : Sampler Unit :=
  .small (fun _ c => .ask c (.drawn "a" .ofDepth) fun v =>
    .ask c (.drawn "b" (.constant v v)) fun _ => .done) []

theorem echo_stops (x : Execution) (c : Context) : (echo.model x c).Stops :=
  Program.stops_ask fun _ => Program.stops_ask fun _ => Program.stops_done

theorem echo_staysOver (x : Execution) (c : Context) :
    (echo.model x c).StaysOver c.chain :=
  Program.within_ask .inner fun _ => Program.within_ask .inner fun _ => trivial

/-- The value that a unit of this sampler draws for its site, and the value that
the distribution recorded with it has under the key of the site. -/
def drawnBy (u : WorkUnit) (r : Run) : Option (Option Nat × Option Nat) :=
  (u.resample echo.job r.executions r.shared).1.toOption.bind fun nodes =>
    (nodes.get? u.site).bind fun node =>
      if node.observed then none
      else some (node.value.nat?, match node.distribution.sample u.siteKey.deeper with
        | .value v => v.nat?
        | _ => none)

theorem drawnBy_eq_some {u : WorkUnit} {r : Run} {x y : Option Nat}
    (h : drawnBy u r = some (x, y)) :
    ∃ nodes node, (u.resample echo.job r.executions r.shared).1 = .ok nodes
      ∧ nodes.get? u.site = some node ∧ node.observed = false ∧ node.value.nat? = x
      ∧ ∀ v, node.distribution.sample u.siteKey.deeper = .value v → v.nat? = y := by
  unfold drawnBy at h
  cases hres : (u.resample echo.job r.executions r.shared).1 with
  | error e =>
    rw [hres] at h
    cases h
  | ok nodes =>
    rw [hres, Except.toOption, Option.bind_some] at h
    obtain ⟨node, hn, h⟩ := Option.bind_eq_some_iff.mp h
    split at h
    · cases h
    · next ho =>
      refine ⟨nodes, node, rfl, hn, Bool.eq_false_iff.mpr ho, ?_, fun v hv => ?_⟩
      · exact congrArg Prod.fst (Option.some.inj h)
      · rw [hv] at h
        exact congrArg Prod.snd (Option.some.inj h)

/-- What the unit at a stage of a call with three steps draws. -/
def drawnAt (k : Nat) : Option (Option Nat × Option Nat) :=
  (echo.job.launched (echo.stage 3 .small k)).queue.head?.bind fun u =>
    drawnBy u { echo.job.launched (echo.stage 3 .small k) with
      queue := (echo.job.launched (echo.stage 3 .small k)).queue.tail }

theorem executes_of_drawnAt {k : Nat} {out : Option Nat × Option Nat}
    (h : drawnAt k = some out) :
    ∃ u r, echo.Executes 3 .small u r ∧ drawnBy u r = some out := by
  obtain ⟨u, hu, h⟩ := Option.bind_eq_some_iff.mp h
  exact ⟨u, _, executes_stage (by decide +kernel) (by decide +kernel) hu, h⟩

/-- The second unit, for the first site, records a value of a distribution that
does not change. -/
theorem sample_recorded_echo :
    ∃ u r nodes node recorded, echo.Executes 3 .small u r
      ∧ (u.resample echo.job r.executions r.shared).1 = .ok nodes
      ∧ nodes.get? u.site = some node ∧ node.observed = false
      ∧ r.trace.get? u.site = some recorded
      ∧ recorded.distribution.sample (node.key.getD u.siteKey.deeper) = .value node.value
      ∧ (echo.job.receive u r).trace.get? u.site = some node := by
  have hat : drawnAt 1 = some (some 3, some 3) := by decide +kernel
  obtain ⟨u, r, hexec, hby⟩ := executes_of_drawnAt hat
  obtain ⟨nodes, node, hok, hn, ho, -⟩ := drawnBy_eq_some hby
  obtain ⟨recorded, hr⟩ := Executes.sample_recorded (b := 0) (d := true) rfl rfl rfl
    echo_stops echo_staysOver hexec hok hn ho
  exact ⟨u, r, nodes, node, recorded, hexec, hok, hn, ho, hr⟩

/-- **A distribution that has moved on is not the one that is sampled.** The third
unit is for the second site, whose distribution repeats the value that the
second unit gave to the first; it draws the value from before that. -/
theorem exists_sample_not_recorded :
    (∀ x c, (echo.model x c).Stops ∧ (echo.model x c).StaysOver c.chain)
      ∧ ∃ u r nodes node, echo.Executes 3 .small u r
        ∧ (u.resample echo.job r.executions r.shared).1 = .ok nodes
        ∧ nodes.get? u.site = some node ∧ node.observed = false
        ∧ node.distribution.sample u.siteKey.deeper ≠ .value node.value := by
  refine ⟨fun x c => ⟨echo_stops x c, echo_staysOver x c⟩, ?_⟩
  have hat : drawnAt 2 = some (some 2, some 3) := by decide +kernel
  obtain ⟨u, r, hexec, hby⟩ := executes_of_drawnAt hat
  obtain ⟨nodes, node, hok, hn, ho, hx, hy⟩ := drawnBy_eq_some hby
  refine ⟨u, r, nodes, node, hexec, hok, hn, ho, fun he => ?_⟩
  have hxy := hy node.value he
  rw [hx] at hxy
  cases hxy

end Sampler

end Resampler
