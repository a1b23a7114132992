import Resampler.Proofs.Chain.Regime
import Resampler.Proofs.Sampler.Course

/-!
# Observations are not disturbed

The observed sites of a sampler are given their values by a condition right
under the recorder, in the prior pass and in every unit. As long as the program
observes none of them itself, a draw of such a site never gets further than
the condition. So it is answered with the supplied value or not at all, its
distribution is not asked, and what is recorded of it is that value.

That this goes on through a run rests on one invariant, `Run.Observes`: the
shared trace has the supplied values, and no observed site is latent or in
flight. A unit that is started while it holds has the supplied values among
those that it holds fixed, and what is held fixed is not brought back.

The one way in which a call can end with the error that an observed value was
overwritten is that the program itself ends the prior pass with it.
-/

namespace Resampler

namespace OrderedMap

variable {κ ν : Type} [DecidableEq κ]

/-- **A map that agrees with another** wherever that has a value. -/
def Extends (m n : OrderedMap κ ν) : Prop :=
  ∀ ⦃k v⦄, n.get? k = some v → m.get? k = some v

theorem Extends.contains {m n : OrderedMap κ ν} (h : m.Extends n) {k : κ}
    (hk : n.contains k = true) : m.contains k = true := by
  obtain ⟨v, hv⟩ := contains_iff.mp hk
  exact contains_iff.mpr ⟨v, h hv⟩

end OrderedMap

/-! ## One draw -/

section Draw

variable {observed data : OrderedMap String Json} {i j : Nat} {rest : Chain}
variable {old : List (Site × RandomKey)} {site : Site} {s : Shared}

/-- **A draw that a condition answers**, recorded at once. -/
theorem Chain.draw_of_condition {w : Json} (ho : site.observed = none)
    (hw : data.get? site.name = some w) (key : Option RandomKey) (s : Shared) :
    (Chain.link i .recorder (.link j (.condition data) rest)).draw site key s
      = if (s.trace i).contains site.name then
          (.failure (.duplicateSite site.name), s)
        else
          (.value w, s.setTrace i ((s.trace i).insert site.name (site.node key w))) := by
  have hc : Handler.drawCondition data rest.draw site key s = (.value w, s) := by
    unfold Handler.drawCondition
    rw [ho, hw]
  show Handler.drawRecorder i (Handler.drawCondition data rest.draw) site key s = _
  unfold Handler.drawRecorder
  rw [hc]
  by_cases h : (s.trace i).contains site.name = true
  · rw [if_pos h, if_pos h]
  · rw [if_neg h, if_neg h]
    exact if_neg h

/-- **The state while observations are left alone**: since a given time no
observed site has been asked for, and none is recorded with another value. -/
structure Undisturbed (observed : OrderedMap String Json)
    (old : List (Site × RandomKey)) (i : Nat) (s : Shared) : Prop where
  asked : ∃ new, s.asked = new ++ old ∧ ∀ a ∈ new, observed.contains a.1.name = false
  recorded : ∀ {y w node}, observed.get? y = some w →
    (s.trace i).get? y = some node → node.value = w

/-- What an answer to a site may be: the supplied value if the site is
observed, and anything else otherwise. -/
def AnswersObserved (observed : OrderedMap String Json) (site : Site)
    (reply : Reply) : Prop :=
  ∀ ⦃v w⦄, reply = .value v → observed.get? site.name = some w → v = w

theorem isQuiet_undisturbed (observed : OrderedMap String Json)
    (old : List (Site × RandomKey)) (i : Nat) :
    Program.IsQuiet (Undisturbed observed old i) :=
  ⟨fun _ h => ⟨h.asked, h.recorded⟩, fun _ h => ⟨h.asked, h.recorded⟩,
    fun _ h => ⟨h.asked, h.recorded⟩⟩

/-- A draw of another site leaves the observed ones alone, whatever the chain. -/
theorem Undisturbed.draw_other (h : Undisturbed observed old i s)
    (hsite : observed.contains site.name = false) (c : Chain)
    (key : Option RandomKey) : Undisturbed observed old i (c.draw site key s).2 := by
  obtain ⟨new, hnew, hname⟩ := c.asked_draw site key s
  obtain ⟨new', hnew', hname'⟩ := h.asked
  refine ⟨⟨new ++ new', ?_, fun a ha => ?_⟩, fun {y w node} hy hn => ?_⟩
  · rw [hnew, hnew', List.append_assoc]
  · rcases List.mem_append.mp ha with ha | ha
    · rw [hname a ha]
      exact hsite
    · exact hname' a ha
  · have hne : y ≠ site.name := by
      intro he
      rw [← he, OrderedMap.contains_eq_false_iff, hy] at hsite
      cases hsite
    rw [c.get?_trace_draw site key s i hne] at hn
    exact h.recorded hy hn

/-- A draw of an observed site gets no further than the condition. -/
theorem Undisturbed.draw_observed (h : Undisturbed observed old i s) {w : Json}
    (ho : site.observed = none) (hw : observed.get? site.name = some w)
    (hd : data.get? site.name = some w) (key : Option RandomKey) {out : Reply × Shared}
    (hout : (Chain.link i .recorder (.link j (.condition data) rest)).draw site key s
      = out) :
    Undisturbed observed old i out.2 ∧ AnswersObserved observed site out.1 := by
  rw [Chain.draw_of_condition ho hd] at hout
  split at hout
  · subst hout
    exact ⟨h, fun v w' hv _ => by cases hv⟩
  · subst hout
    refine ⟨⟨h.asked, fun {y w' node} hy hn => ?_⟩, fun v w' hv hy => ?_⟩
    · rw [Shared.trace_setTrace, if_pos rfl, OrderedMap.get?_insert] at hn
      split at hn
      · next he =>
        rw [← he, hw] at hy
        cases hy
        cases hn
        rfl
      · exact h.recorded hy hn
    · rw [hw] at hy
      cases hy
      cases hv
      rfl

/-- **A condition keeps observations undisturbed.** -/
theorem Undisturbed.draw (h : Undisturbed observed old i s)
    (hdata : data.Extends observed)
    (hsite : site.observed.isSome = true → observed.contains site.name = false)
    (key : Option RandomKey) {out : Reply × Shared}
    (hout : (Chain.link i .recorder (.link j (.condition data) rest)).draw site key s
      = out) :
    Undisturbed observed old i out.2 ∧ AnswersObserved observed site out.1 := by
  cases hc : observed.contains site.name with
  | true =>
    obtain ⟨w, hw⟩ := OrderedMap.contains_iff.mp hc
    -- The program leaves it to the sampler to observe this site.
    have ho : site.observed = none := by
      cases hs : site.observed with
      | none => rfl
      | some v =>
        rw [hsite (by rw [hs]; rfl)] at hc
        cases hc
    exact h.draw_observed ho hw (hdata hw) key hout
  | false =>
    subst hout
    refine ⟨h.draw_other hc _ key, fun v w _ hy => ?_⟩
    rw [OrderedMap.contains_eq_false_iff, hy] at hc
    cases hc

end Draw

/-! ## One execution -/

/-- **Programs that leave the observed sites alone**: they ask through one
context, and observe none of those sites. -/
def Program.LeavesObserved {σ : Type} (observed : OrderedMap String Json)
    (c : Context) (p : Program σ) : Prop :=
  p.Within fun c' site =>
    c' = c ∧ (site.observed.isSome = true → observed.contains site.name = false)

section Execution

variable {σ : Type} {observed data : OrderedMap String Json} {i j : Nat}
variable {rest : Chain} {token : Token} {old : List (Site × RandomKey)} {s : Shared}

/-- **An execution keeps observations undisturbed**, and answers them with the
supplied values. -/
theorem Undisturbed.run {p : Program σ}
    (hp : p.LeavesObserved observed
      ⟨.link i .recorder (.link j (.condition data) rest), token⟩)
    (hdata : data.Extends observed) (h : Undisturbed observed old i s) :
    Undisturbed observed old i (p.run s).2
      ∧ ∀ a ∈ p.transcript s, AnswersObserved observed a.1 a.2 := by
  refine hp.run (isQuiet_undisturbed observed old i) ?_ h
  rintro c site s ⟨rfl, hsite⟩ hs
  unfold Context.draw
  split
  · exact ⟨hs, fun v w hv _ => by cases hv⟩
  · exact hs.draw hdata hsite none rfl

theorem undisturbed_start (observed : OrderedMap String Json)
    {new : List (Site × RandomKey)} (hs : s.asked = new ++ old)
    (hnew : ∀ a ∈ new, observed.contains a.1.name = false)
    (ht : s.trace i = .empty) : Undisturbed observed old i s := by
  refine ⟨⟨new, hs, hnew⟩, fun {y w node} _ hn => ?_⟩
  rw [ht] at hn
  cases hn

end Execution

namespace Sampler

variable {σ : Type} {g : Sampler σ} {steps : Nat} {s : Shared}

/-- The prior pass leaves observations undisturbed. -/
theorem undisturbed_prior
    (hg : ∀ x c, (g.model x c).LeavesObserved g.observed c) (s : Shared) :
    Undisturbed g.observed s.asked (s.next + 2) (g.priorExecution s).2
      ∧ ∀ a ∈ g.priorTranscript s, AnswersObserved g.observed a.1 a.2 := by
  refine Undisturbed.run (hg _ _) (fun _ _ h => h) ?_
  refine undisturbed_start g.observed (List.nil_append _).symm (fun _ h => nomatch h) ?_
  show (Shared.setTrace _ _ _).trace _ = _
  rw [Shared.trace_setTrace, if_pos rfl]

/-- A unit leaves observations undisturbed that are among what it holds
fixed. -/
theorem undisturbed_unit {job : Job σ} {observed : OrderedMap String Json}
    {old new : List (Site × RandomKey)} {u : WorkUnit} {i : Nat}
    (hjob : ∀ x c, (job.model x c).LeavesObserved observed c)
    (hu : u.fixed.Extends observed) (hs : s.asked = new ++ old)
    (hnew : ∀ a ∈ new, observed.contains a.1.name = false) :
    Undisturbed observed old (s.next + 5) (u.execution job i s).2
      ∧ ∀ a ∈ u.transcript job i s, AnswersObserved observed a.1 a.2 := by
  refine Undisturbed.run (hjob _ _) hu ?_
  refine undisturbed_start observed (s := u.prepare s) hs hnew ?_
  show (Shared.setTrace _ _ _).trace _ = _
  rw [Shared.trace_setTrace, if_pos rfl]

end Sampler

/-! ## The run -/

/-- **A run that keeps its observations.** -/
structure Run.Observes (observed : OrderedMap String Json)
    (old : List (Site × RandomKey)) (r : Run) : Prop where
  trace : r.trace.assignment.Extends observed
  latent : ∀ y ∈ r.schedule.latent, observed.contains y = false
  queue : ∀ u ∈ r.queue, observed.contains u.site = false ∧ u.fixed.Extends observed
  asked : ∃ new, r.shared.asked = new ++ old ∧ ∀ a ∈ new, observed.contains a.1.name = false

/-- What brings back no observed site leaves the supplied values. -/
theorem OrderedMap.Extends.insertAll {observed : OrderedMap String Json} {t nodes : Trace}
    (h : t.assignment.Extends observed)
    (hn : ∀ y, observed.contains y = true → nodes.contains y = false) :
    (Trace.assignment (t.insertAll nodes.entries)).Extends observed := by
  intro y w hy
  have hc := hn y (OrderedMap.contains_iff.mpr ⟨w, hy⟩)
  have ht := h hy
  unfold Trace.assignment at ht ⊢
  rw [OrderedMap.get?_map] at ht ⊢
  rw [OrderedMap.get?_insertAll, OrderedMap.contains_eq_false_iff.mp hc, Option.none_or]
  exact ht

namespace Job

variable {σ : Type} {job : Job σ} {observed : OrderedMap String Json}
variable {old : List (Site × RandomKey)}

/-- What a unit brings back is not held fixed, so it is not observed. -/
theorem contains_nodes_of_observed {u : WorkUnit} {index : Nat} {s : Shared}
    {nodes : Trace} (hu : u.fixed.Extends observed)
    (h : (u.resample job index s).1 = .ok nodes) {y : String}
    (hy : observed.contains y = true) : nodes.contains y = false := by
  rw [(WorkUnit.resample_eq_ok h).2, OrderedMap.contains_eq_false_iff, WorkUnit.free,
    OrderedMap.get?_filterKeys, hu.contains hy]
  rfl

theorem isInvariant_observes
    (hjob : ∀ x c, (job.model x c).LeavesObserved observed c) :
    job.IsInvariant (Run.Observes observed old) where
  stops h := ⟨h.trace, h.latent, h.queue, h.asked⟩
  starts {r site d} h hw _ := by
    have hsite := h.latent site (Schedule.findWork_eq_some hw).1
    refine ⟨h.trace, h.latent, fun u hu => ?_, h.asked⟩
    rcases List.mem_append.mp hu with hu | hu
    · exact h.queue u hu
    · rw [List.mem_singleton.mp hu]
      refine ⟨hsite, fun y w hy => ?_⟩
      -- The site itself is not fixed, but it is not observed either.
      have hne : y ≠ site := by
        intro he
        rw [← he, OrderedMap.contains_eq_false_iff, hy] at hsite
        cases hsite
      show (r.others site).get? y = some w
      unfold Run.others
      rw [OrderedMap.get?_filterKeys, decide_eq_false hne]
      exact h.trace hy
  aborts {r site e} h _ _ := by
    obtain ⟨c, hc⟩ := Run.abort_eq r (.siteFailed site e)
    rw [hc]
    exact ⟨h.trace, h.latent, h.queue, h.asked⟩
  takes {r u rest} h hq := by
    have hu := (h.queue u (hq ▸ List.mem_cons_self)).2
    obtain ⟨new, hnew, hname⟩ := h.asked
    have hun := (Sampler.undisturbed_unit hjob hu hnew hname (i := r.executions)).1
    have got := job.received_receive u { r with queue := rest }
    refine ⟨?_, fun y hy => ?_, fun u' hu' => ?_, ?_⟩
    · rw [got.trace]
      unfold Run.traceAfter
      split
      · next nodes hres =>
        exact h.trace.insertAll fun y hy => contains_nodes_of_observed hu hres hy
      · exact h.trace
    · rcases got.latent y hy with hy | ⟨nodes, hres, hc⟩
      · exact h.latent y hy
      · refine Bool.eq_false_iff.mpr fun ho => ?_
        rw [contains_nodes_of_observed hu hres ho] at hc
        cases hc
    · rw [got.queue] at hu'
      exact h.queue u' (hq ▸ List.mem_cons_of_mem _ hu')
    · rw [got.asked]
      exact hun.asked

end Job

namespace Sampler

variable {σ : Type} {g : Sampler σ} {steps : Nat} {s : Shared}

/-- **The run that follows a prior pass keeps its observations.** -/
theorem observes_firstRun
    (hg : ∀ x c, (g.model x c).LeavesObserved g.observed c) {t : Trace} {s' : Shared}
    (h : g.Begins s t s') : (g.firstRun steps t s').Observes g.observed s.asked := by
  have hprior := (undisturbed_prior hg s).1
  refine ⟨fun y w hy => ?_, fun y hy => ?_, fun u hu => ?_, ?_⟩
  · -- The name is in the trace, for no observed site is missing there.
    have hmem : y ∈ g.observed.keys :=
      OrderedMap.mem_keys_iff.mpr (OrderedMap.contains_iff.mpr ⟨w, hy⟩)
    have hc := List.find?_eq_none.mp h.visited y hmem
    rw [Bool.not_eq_true, Bool.not_eq_false', OrderedMap.contains_iff] at hc
    obtain ⟨node, hn⟩ := hc
    show t.assignment.get? y = some w
    unfold Trace.assignment
    rw [OrderedMap.get?_map, hn, Option.map_some,
      hprior.recorded hy (h.trace ▸ hn)]
  · have hl := Schedule.mem_latent_create hy
    obtain ⟨e, he, rfl⟩ := List.mem_map.mp hl
    have hb := (List.mem_filter.mp he).2
    rw [Bool.and_eq_true, Bool.not_eq_true'] at hb
    exact (Bool.not_eq_true' _).mp hb.2
  · cases hu
  · show ∃ new, s'.asked = new ++ s.asked ∧ _
    rw [h.shared]
    exact hprior.asked

/-- No observed site has lost its value in a trace that agrees with them. -/
theorem overwritten_eq_none {t : Trace} (h : t.assignment.Extends g.observed) :
    g.overwritten t = none := by
  unfold overwritten
  rw [Option.map_eq_none_iff, List.find?_eq_none]
  intro e he
  have ht := h (OrderedMap.get?_eq_some_iff.mpr he)
  unfold Trace.assignment at ht
  rw [OrderedMap.get?_map, Option.map_eq_some_iff] at ht
  obtain ⟨node, hn, hv⟩ := ht
  rw [hn]
  show ¬ (!node.value.same e.2) = true
  rw [hv, Json.same_self]
  exact Bool.false_ne_true

/-! ## The call -/

/-- **A call that does not disturb its observations.** -/
structure KeepsObservations (g : Sampler σ) (steps : Nat) (s : Shared) : Prop where
  /-- In the prior pass a draw of an observed site that succeeds answers the
  supplied value. -/
  prior : ∀ a ∈ g.priorTranscript s, AnswersObserved g.observed a.1 a.2
  /-- So it does in every unit. -/
  units : ∀ {u r}, g.Executes steps s u r →
    ∀ a ∈ u.transcript g.job r.executions r.shared, AnswersObserved g.observed a.1 a.2
  /-- No distribution is asked for an observed site. -/
  unasked : ∃ new, (g.sample steps s).2.2.asked = new ++ s.asked
    ∧ ∀ a ∈ new, g.observed.contains a.1.name = false
  /-- After the prior pass and after every unit the shared trace has the supplied
  values. -/
  merged : ∀ {r}, g.Reaches steps s r → r.trace.assignment.Extends g.observed
  /-- No observed site is ever latent. -/
  latent : ∀ {r}, g.Reaches steps s r →
    ∀ y ∈ (g.job.launched r).schedule.latent, g.observed.contains y = false
  /-- No observed site is ever started. -/
  started : ∀ {r}, g.Reaches steps s r →
    ∀ u ∈ (g.job.launched r).queue, g.observed.contains u.site = false
  /-- Only the program can bring up that an observed value was overwritten, at
  the end of the prior pass. -/
  kept : ∀ {site}, (g.sample steps s).1 = .failure (.observationOverwritten site) →
    (g.priorExecution s).1.1 = .failure (.observationOverwritten site)

/-- **Sampling does not disturb observations**, over any chain, with any
dependencies and any local posterior. -/
theorem keepsObservations (g : Sampler σ) (steps : Nat) (s : Shared)
    (hg : ∀ x c, (g.model x c).LeavesObserved g.observed c) :
    g.KeepsObservations steps s := by
  have hprior := undisturbed_prior hg s
  have hinv : g.job.IsInvariant (Run.Observes g.observed s.asked) :=
    Job.isInvariant_observes hg
  have hreach : ∀ {r}, g.Reaches steps s r → r.Observes g.observed s.asked := fun h =>
    h.keeps hinv (observes_firstRun hg)
  refine ⟨hprior.2, fun {u r} he => ?_, ?_, fun h => (hreach h).trace,
    fun h => (hinv.launched (hreach h)).latent,
    fun h u hu => ((hinv.launched (hreach h)).queue u hu).1, fun {site} hf => ?_⟩
  · cases he with
    | @intro r₀ _ rest before front =>
      have hobs := hinv.launched (hreach before)
      obtain ⟨new, hnew, hname⟩ := hobs.asked
      have hu := (hobs.queue u (front ▸ List.mem_cons_self)).2
      exact (undisturbed_unit hg hu hnew hname).2
  · rcases sample_cases g steps s with ⟨t, s', hb, he⟩ | ⟨he, -⟩
    · rw [he, resample_asked]
      exact (lastRun_keeps hinv (observes_firstRun hg) hb).asked
    · rw [he]
      exact hprior.1.asked
  · rcases sample_cases g steps s with ⟨t, s', hb, he⟩ | ⟨-, hfail⟩
    · have hobs : (g.lastRun steps t s').Observes g.observed s.asked :=
        lastRun_keeps hinv (observes_firstRun hg) hb
      rw [he] at hf
      rcases resample_failure hf with h | h | ⟨y, h, -⟩
      · cases lastRun_blames hb h
      · cases h
      · rw [overwritten_eq_none hobs.trace] at h
        cases h
    · rcases hfail _ hf with h | ⟨_, h⟩
      · exact h
      · cases h

/-- A sampler of two sites, the second one observed. -/
def pair : Sampler Unit :=
  .small (fun _ c => .ask c (.drawn "x" .ofDepth) fun _ =>
    .ask c (.drawn "y" .ofDepth) fun _ => .done) [("y", .ofNat 7)]

theorem keepsObservations_pair : pair.KeepsObservations 3 .small := by
  refine keepsObservations pair 3 .small fun x c => ?_
  refine Program.within_ask ⟨rfl, fun h => nomatch h⟩ fun _ => ?_
  exact Program.within_ask ⟨rfl, fun h => nomatch h⟩ fun _ => trivial

example : ((pair.sample 3 .small).1.map fun l => l.map fun e => (e.1, e.2.nat?))
    = .value [("x", some 3)] := by decide +kernel

/-- A sampler whose program says of its observed site that it was
overwritten. -/
def accusing : Sampler Unit :=
  .small (fun _ c => .ask c (.drawn "y" .ofDepth) fun _ =>
    .finish (.failure (.observationOverwritten "y")) ()) [("y", .ofNat 7)]

/-- What the program itself fails with is not kept from the caller. -/
theorem accusing_sample :
    (∀ x c, (accusing.model x c).LeavesObserved accusing.observed c)
      ∧ (accusing.sample 0 .small).1 = .failure (.observationOverwritten "y") :=
  ⟨fun _ _ => Program.within_ask ⟨rfl, fun h => nomatch h⟩ fun _ => trivial, rfl⟩

end Sampler

end Resampler
