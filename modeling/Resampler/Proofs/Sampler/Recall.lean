import Resampler.Proofs.Chain.Mirror
import Resampler.Proofs.Chain.Recall
import Resampler.Proofs.Program.Tokens
import Resampler.Proofs.Sampler.Steps
import Resampler.Proofs.Sampler.Uncached

/-!
# A call is repeated from its cache

A call over a cache on a standard interpreter leaves in the cache whatever it has drawn. An
equal sampler over nothing but that cache repeats the call: it asks for the same draws under
the same keys, each of them is in the cache, and so no distribution is asked.

The cache may be in memory, or over a store, which may have been opened again by then. The
program may have interpreters of its own, but the second call must find them as the first
one did; a thread that has gone on by then gives other keys
(`Sampler.exists_missed_strolling`).
-/

namespace Resampler

variable {σ : Type}

/-! ## Numbers that name nothing yet -/

/-- **Numbers are given out in order**: whatever is known of a number, it has been given
out. -/
structure Shared.InOrder (s : Shared) : Prop where
  held : ∀ e ∈ s.held.entries, e.1 < s.next
  used : ∀ e ∈ s.used.entries, e.1 < s.next
  traces : ∀ e ∈ s.traces.entries, e.1 < s.next
  sightings : ∀ e ∈ s.sightings.entries, e.1 < s.next
  installed : ∀ j ∈ s.installed, j < s.next
  cancelled : ∀ j ∈ s.cancelled, j < s.next

theorem get?_eq_none_of_lt {ν : Type} {m : OrderedMap Nat ν} {n j : Nat}
    (h : ∀ e ∈ m.entries, e.1 < n) (hj : n ≤ j) : m.get? j = none := by
  cases hget : m.get? j with
  | none => rfl
  | some v => exact absurd (h _ (OrderedMap.get?_eq_some_iff.mp hget)) (Nat.not_lt.mpr hj)

/-- Of numbers that have not been given out nothing is known. -/
theorem Shared.InOrder.sameCells {s t : Shared} (hs : s.InOrder) (ht : t.InOrder) {a b : Nat}
    (ha : s.next ≤ a) (hb : t.next ≤ b) : s.SameCells t a b where
  held := by
    rw [heldKey, heldKey, get?_eq_none_of_lt hs.held ha, get?_eq_none_of_lt ht.held hb]
  used := by
    rw [usedKeys, usedKeys, get?_eq_none_of_lt hs.used ha, get?_eq_none_of_lt ht.used hb]
  trace := by
    rw [trace, trace, get?_eq_none_of_lt hs.traces ha, get?_eq_none_of_lt ht.traces hb]
  seen := by
    rw [seen, seen, get?_eq_none_of_lt hs.sightings ha, get?_eq_none_of_lt ht.sightings hb]
  installed := by
    rw [List.count_eq_zero_of_not_mem fun h => Nat.not_lt.mpr ha (hs.installed a h),
      List.count_eq_zero_of_not_mem fun h => Nat.not_lt.mpr hb (ht.installed b h)]

/-! ## Nothing is lost on the way -/

theorem Shared.ofContents_onward (s : Shared) : OfContents s.Onward :=
  fun h hcaches hstores _ => h.trans (.of_eq hcaches hstores)

/-- **A program takes nothing out of caches and stores.** -/
theorem Program.onward_run (p : Program σ) (s : Shared) : s.Onward (p.run s).2 := by
  induction p generalizing s with
  | finish outcome locals => exact .refl s
  | draw c site next ih =>
    rw [run_draw]
    refine Shared.Onward.trans ?_ (ih _ _)
    unfold Context.draw
    split
    · exact .refl s
    · exact c.chain.onward_draw site none s
  | scope c layer body next ihb ihn =>
    by_cases ha : c.admits s layer = true
    · rw [run_scope_of_admits ha]
      have hopened : s.Onward (s.install layer.id) := .of_eq rfl rfl
      have hclosed : ((body (c.inside layer)).run (s.install layer.id)).2.Onward
          (((body (c.inside layer)).run (s.install layer.id)).2.release layer.id) :=
        .of_eq rfl rfl
      exact hopened.trans ((ihb _ _).trans (hclosed.trans (ihn _ _)))
    · rw [run_scope_of_not_admits ha]
      exact ihn _ s
  | cancel token next ih =>
    have hcancelled : s.Onward (s.cancel token) := .of_eq rfl rfl
    exact hcancelled.trans (ih _)

/-- **Draws that come to values come to them all the way down.** -/
theorem Program.along_succeeds {R : Json → Prop} {t : Shared} {p : Program σ} {s : Shared}
    (hend : (p.run s).2.Onward t)
    (hall : ∀ x ∈ p.transcript s, x.1.observed = none → ∃ v, R v ∧ x.2 = .value v) :
    p.Along (Chain.Succeeds R t) s := by
  induction p generalizing s with
  | finish outcome locals => trivial
  | draw c site next ih =>
    refine ⟨fun hlive => Chain.throughout_succeeds fun ho => ?_,
      ih _ hend fun x hx => hall x (List.mem_cons_of_mem _ hx)⟩
    obtain ⟨v, hv, hreply⟩ := hall _ List.mem_cons_self ho
    have hdraw : c.draw site s = c.chain.draw site none s := by
      unfold Context.draw
      rw [if_neg (Bool.eq_false_iff.mp hlive)]
    have hrest : (c.draw site s).2.Onward t :=
      ((next (c.draw site s).1).onward_run _).trans hend
    rw [hdraw] at hrest
    change (c.draw site s).1 = .value v at hreply
    rw [hdraw] at hreply
    exact ⟨v, hv, hreply, hrest⟩
  | scope c layer body next ihb ihn =>
    unfold Along
    by_cases ha : c.admits s layer = true
    · rw [if_pos ha]
      rw [run_scope_of_admits ha] at hend
      rw [transcript_scope_of_admits ha] at hall
      have hclosed : ((body (c.inside layer)).run (s.install layer.id)).2.Onward
          (((body (c.inside layer)).run (s.install layer.id)).2.release layer.id) :=
        .of_eq rfl rfl
      have hbody := hclosed.trans (((next _).onward_run _).trans hend)
      exact ⟨ihb _ hbody fun x hx => hall x (List.mem_append_left _ hx),
        ihn _ hend fun x hx => hall x (List.mem_append_right _ hx)⟩
    · rw [if_neg ha]
      rw [run_scope_of_not_admits ha] at hend
      rw [transcript_scope_of_not_admits ha] at hall
      exact ihn _ hend hall
  | cancel token next ih => exact ih hend hall

/-- **A run takes nothing out of caches and stores** as it is driven on. -/
theorem Job.onward_drive (job : Job σ) (n : Nat) (r : Run) :
    r.shared.Onward (job.drive n r).shared := by
  induction n generalizing r with
  | zero => exact .refl _
  | succ n ih =>
    have hlaunched := (job.lasts_ofContents r.shared.ofContents_onward).launched
      (r := r) (.refl _)
    cases hq : (job.launched r).queue with
    | nil =>
      rw [Job.drive_of_nil hq]
      exact hlaunched
    | cons u rest =>
      rw [Job.drive_of_cons hq]
      refine Shared.Onward.trans ?_ (ih _)
      have hprepared : r.shared.Onward (u.prepare (job.launched r).shared) :=
        hlaunched.trans (.of_eq rfl rfl)
      exact Job.receive_ofContents r.shared.ofContents_onward
        (r := { job.launched r with queue := rest }) (hprepared.trans (Program.onward_run _ _))

namespace Sampler

variable {g : Sampler σ} {steps : Nat} {s t : Shared} {R : Json → Prop}

/-- **A call of which no draw fails**, and the values of which are of a kind. -/
structure Draws (g : Sampler σ) (steps : Nat) (s : Shared) (R : Json → Prop) : Prop where
  prior : ∀ x ∈ g.priorTranscript s, x.1.observed = none → ∃ v, R v ∧ x.2 = .value v
  units : ∀ {u r}, g.Executes steps s u r →
    ∀ x ∈ u.transcript g.job r.executions r.shared, x.1.observed = none →
      ∃ v, R v ∧ x.2 = .value v

/-- The draws of the units that a run goes on to take back succeed. -/
theorem Draws.along_job (h : g.Draws steps s R) (n : Nat) {r : Run}
    (hr : g.Reaches steps s r) (hend : (g.job.drive n r).shared.Onward t) :
    g.job.Along (Chain.Succeeds R t) n r := by
  induction n generalizing r with
  | zero => trivial
  | succ n ih =>
    intro u rest hq
    rw [Job.drive_of_cons hq] at hend
    have hexecution : (u.execution g.job (g.job.launched r).executions
        (g.job.launched r).shared).2.Onward t := by
      refine Shared.Onward.trans ?_ ((g.job.onward_drive n _).trans hend)
      exact Job.receive_ofContents (Shared.ofContents_onward _)
        (r := { g.job.launched r with queue := rest }) (.refl _)
    have hunit : g.Executes steps s u { g.job.launched r with queue := rest } := .intro hr hq
    have hdraws := h.units hunit
    exact ⟨Program.along_succeeds hexecution hdraws, ih (.turn hr hq) hend⟩

/-- A call that answers has begun to sample. -/
theorem exists_begins (ok : (g.sample steps s).1.isValue = true) :
    ∃ trace s', g.Begins s trace s' := by
  unfold sample at ok
  rcases hp : g.priorPass s with ⟨outcome, trace, s'⟩
  rw [hp] at ok
  dsimp only at ok
  split at ok
  · cases ok
  · cases ok
  · split at ok
    · cases ok
    · next hv => exact ⟨trace, s', hp, hv⟩

/-- A call that answers leaves the state of its last run. -/
theorem shared_of_answers {trace : Trace} {s' : Shared} (h : g.Begins s trace s')
    (ok : (g.sample steps s).1.isValue = true) :
    (g.sample steps s).2.2 = (g.lastRun steps trace s').shared := by
  rw [sample_of_begins h] at ok ⊢
  show (Sampler.conclude _ (g.lastRun steps trace s').shared
    (g.answer (g.lastRun steps trace s'))).2 = _
  change (Outcome.ofExcept (g.answer (g.lastRun steps trace s'))).isValue = true at ok
  cases ha : g.answer (g.lastRun steps trace s') with
  | ok values => rfl
  | error e =>
    rw [ha] at ok
    cases ok

/-- **All draws of such a call succeed**, and what they come to is not lost. -/
theorem Draws.follows (h : g.Draws steps s R) (ok : (g.sample steps s).1.isValue = true) :
    g.Follows (Chain.Succeeds R (g.sample steps s).2.2) steps s := by
  obtain ⟨trace, s', hb⟩ := exists_begins ok
  have hend := shared_of_answers hb ok
  rw [hend]
  refine ⟨Program.along_succeeds ?_ h.prior, fun hb' => ?_⟩
  · have hpass : (g.priorExecution s).2.Onward s' := by
      rw [hb.shared]
      exact .of_eq rfl rfl
    exact hpass.trans (g.job.onward_drive (steps + 1) (g.firstRun steps trace s'))
  · have heq := hb.passed.symm.trans hb'.passed
    cases heq
    exact h.along_job _ (.first hb') (.refl _)

/-- **A call that answers had a live token.** -/
theorem isCancelled_of_answers (ok : (g.sample steps s).1.isValue = true) :
    s.isCancelled g.token = false := by
  obtain ⟨trace, s', hb⟩ := exists_begins ok
  refine Bool.eq_false_iff.mpr fun hc => ?_
  have hcancelled : (g.firstRun steps trace s').shared.isCancelled g.job.token = true := by
    show s'.isCancelled g.token = true
    rw [hb.shared]
    exact Program.isCancelled_run _ (s := g.priorStart s) hc
  have hstopped : g.job.launched (g.firstRun steps trace s')
      = (g.firstRun steps trace s').stop := Job.launched_of_cancelled rfl hcancelled
  have hlast : g.lastRun steps trace s' = (g.firstRun steps trace s').stop := by
    unfold lastRun
    rw [Job.drive_of_nil (by rw [hstopped]; rfl), hstopped]
  rw [sample_of_begins hb] at ok
  change (Outcome.ofExcept (g.answer (g.lastRun steps trace s'))).isValue = true at ok
  rw [hlast] at ok
  cases ok

/-- **What a call leaves comes later** than what it was made in. -/
theorem later_sample (g : Sampler σ) (steps : Nat) (s : Shared) :
    Shared.Later (fun _ => True) s (g.sample steps s).2.2 := by
  have hcontents : Shared.OfContents (Shared.Later (fun _ => True) s) :=
    fun h _ hstores hfiles => .same h hstores hfiles
  refine sample_ofContents hcontents ?_ fun {u r} _ hr => ?_
  · have hstart : Shared.Later (fun _ => True) s (g.priorStart s) := .same (.refl s) rfl rfl
    exact hstart.trans ((g.priorProgram s.next).later_run _)
  · have hprepared : Shared.Later (fun _ => True) s (u.prepare r.shared) := .same hr rfl rfl
    exact hprepared.trans ((u.program g.job r.executions r.shared.next).later_run _)

/-- A unit is executed after others. -/
theorem isInvariant_executions (g : Sampler σ) :
    g.job.IsInvariant fun r => g.executions ≤ r.executions where
  stops h := h
  starts h _ _ := h
  aborts h _ _ := h
  takes {r u rest} h _ := by
    have hsettled (r : Run) (site : String) (result : Except Error Trace) :
        (r.settle site result).executions = r.executions := by
      cases result with
      | ok nodes => rw [Run.settle_ok]
      | error e =>
        rcases r.settle_error site e with he | he
        · rw [he]
        · rw [he]
          rfl
    unfold Job.receive
    rw [hsettled]
    exact Nat.le_succ_of_le h

/-! ## With the cache alone -/

section Recalling

variable {B : Belongings} {h h' : Handler} {m a m' τ τ' : Nat} {g' : Sampler σ} {F : Shared}

/-- **Two samplers, over a cache `h` on a standard interpreter and over nothing but a cache
`h'`**, equal but for that, their tokens `τ` and `τ'`, and what they have been used for. The
one is called in the state `s`, the other in `t`. -/
structure Retraces (B : Belongings) (h h' : Handler) (m a m' τ τ' : Nat) (g g' : Sampler σ)
    (s t : Shared) : Prop where
  recorder : ∃ detectReuse, g.base = .link m h (.link a (.standard detectReuse) .empty)
  player : g'.base = .link m' h' .empty
  cache : h.IsCache
  cache' : h'.IsCache
  works : h.Works s
  model : g'.model = g.model
  observed : g'.observed = g.observed
  settings : g'.settings = g.settings
  posterior : g'.posterior = g.posterior
  token : g.token = .ofId τ
  token' : g'.token = .ofId τ'
  live' : τ' ∉ t.cancelled
  /-- What is known of a number, it has been given out. -/
  ordered : s.InOrder ∧ t.InOrder
  /-- The instances and the tokens have been made. -/
  made : ∀ j ∈ [m, a, τ], j < s.next
  made' : ∀ j ∈ [m', τ'], j < t.next
  /-- The program is handed the bases and the tokens, and does not look into what it is
  handed. -/
  blind : ∀ k, g.model.IsBlind B (g.executions + k) (g'.executions + k)
  /-- It has them from nowhere else, and the instances that it has are found by the second
  call as they were by the first. -/
  instances : ∀ j, B.numbers j →
    (j < s.next ∧ j < t.next ∧ j ∉ [m, a] ∧ j ≠ m') ∧ s.SameCells t j j
  /-- It has no stores, and asks no distributions by itself. -/
  kinds : ∀ k, B.kinds k → k ≠ h ∧ (∀ d, k ≠ .standard d) ∧ (∀ i, k ≠ .persistent i)
    ∧ ∀ i, k = .memo i → t.cache i = s.cache i
  tokens : ∀ j, B.tokens j →
    (j < s.next ∧ j < t.next ∧ j ≠ τ ∧ j ≠ τ') ∧ (j ∈ t.cancelled ↔ j ∈ s.cancelled)

/-- **The first call beside the second one.** The second has a cache that has what the
cache of the first had in the end, at `F`, and asks for nothing. -/
def recalling (B : Belongings) (h h' : Handler) (τ τ' : Nat) (s₀ t₀ F : Shared) : Pairing where
  instances x y := (x = y ∧ B.numbers x ∧ x < s₀.next ∧ x < t₀.next)
    ∨ ∃ j, x = s₀.next + j ∧ y = t₀.next + j
  tokens x y := (x = τ ∧ y = τ' ∧ τ < s₀.next ∧ τ' < t₀.next)
    ∨ (x = y ∧ x ≠ τ ∧ x ≠ τ' ∧ B.tokens x ∧ x < s₀.next ∧ x < t₀.next)
    ∨ ∃ j, x = s₀.next + j ∧ y = t₀.next + j
  side s t := h.Works s ∧ (∀ i, B.kinds (.memo i) → t.cache i = s.cache i)
    ∧ (∀ d k v, h.Recalls F d k v → h'.Recalls t d k v) ∧ t.asked = t₀.asked
  instances_iff := by
    rintro x y x' y' (⟨rfl, -, hs, ht⟩ | ⟨j, rfl, rfl⟩) (⟨rfl, -, hs', ht'⟩ | ⟨j', rfl, rfl⟩)
    all_goals omega
  tokens_iff := by
    rintro x y x' y' (⟨rfl, rfl, hs, ht⟩ | ⟨rfl, hτ, hτ', -, hs, ht⟩ | ⟨j, rfl, rfl⟩)
      (⟨rfl, rfl, hs', ht'⟩ | ⟨rfl, hυ, hυ', -, hs', ht'⟩ | ⟨j', rfl, rfl⟩)
    all_goals omega
  side_of_eq := by
    rintro s t s' t' ⟨hworks, hown, hrecalls, hasked⟩ hc hst - - hc' hst' - ha'
    refine ⟨hworks.onward (.of_eq hc hst), fun i hi => ?_, fun d k v hv => ?_, ha'.trans hasked⟩
    · rw [Shared.cache, Shared.cache, hc, hc']
      exact hown i hi
    · exact (hrecalls d k v hv).onward (.of_eq hc' hst')

variable {s₀ t₀ : Shared}

theorem suits_recalling {k : Handler} (hown : B.kinds k) (hask : ∀ d, k ≠ .standard d)
    (hstore : ∀ i, k ≠ .persistent i) : (recalling B h h' τ τ' s₀ t₀ F).Suits k where
  asks _ _ he := absurd he (hask _)
  stores he := absurd he (hstore _)
  caches {i s t} he hs := by
    obtain ⟨hworks, hcaches, hrecalls, hasked⟩ := hs
    refine ⟨hcaches i (he ▸ hown), fun entry v => ⟨?_, fun j hj => ?_, fun d k w hw => ?_, hasked⟩⟩
    · exact hworks.onward (s.onward_remember i entry v)
    · rw [Shared.cache_remember, Shared.cache_remember, hcaches j hj, hcaches i (he ▸ hown)]
    · exact (hrecalls d k w hw).onward (t.onward_remember i entry v)

/-- **What a draw comes to over the first cache, the second one answers alone.** -/
theorem agree_recalling {detectReuse : Bool} {site : Site} {key : Option RandomKey}
    (hh : h.IsCache) (hh' : h'.IsCache) (hown : ∀ i, B.kinds (.memo i) → h ≠ .memo i)
    (hinstances : ∀ {x y}, (recalling B h h' τ τ' s₀ t₀ F).instances x y → x ≠ a)
    (hP : (Chain.link m h (.link a (.standard detectReuse) .empty)).Succeeds h.Rereads F site
      key s)
    (hs : (recalling B h h' τ τ' s₀ t₀ F).Beside s t) :
    (recalling B h h' τ τ' s₀ t₀ F).Agree
      ((Chain.link m h (.link a (.standard detectReuse) .empty)).draw site key s)
      ((Chain.link m' h' .empty).draw site key t) := by
  cases ho : site.observed with
  | some w =>
    have hstandard : (Chain.link a (.standard detectReuse) .empty).draw site key s
        = (.value w, s) := by
      show Handler.drawStandard a detectReuse site key s = _
      unfold Handler.drawStandard
      rw [ho]
    have hempty : Chain.empty.draw site key t = (.value w, t) := by
      show (site.unanswered, t) = _
      unfold Site.unanswered
      rw [ho]
    have hcached : (Chain.link m h (.link a (.standard detectReuse) .empty)).draw site key s
        = (.value w, s) := (hh.letsPass.draw_observed ho ..).trans hstandard
    have halone : (Chain.link m' h' .empty).draw site key t = (.value w, t) :=
      (hh'.letsPass.draw_observed ho ..).trans hempty
    rw [hcached, halone]
    exact ⟨rfl, hs⟩
  | none =>
    obtain ⟨v, hread, hreply, honward⟩ := hP ho
    obtain ⟨hworks, hcaches, hrecalls, hasked⟩ := hs.side
    obtain ⟨k, rfl, hkept⟩ := hh.recalls_draw hworks ho
      (Handler.aside_standard a detectReuse) hreply hread
    have hhit : (Chain.link m' h' .empty).draw site (some k) t = (.value v, t) :=
      Handler.draw_of_recalls (hrecalls _ k v (hkept.onward honward)) ho
    rw [hhit]
    have hframe := hh.frames_draw m a detectReuse site (some k) s
    have hworks' := hworks.onward
      ((Chain.link m h (.link a (.standard detectReuse) .empty)).onward_draw site (some k) s)
    refine ⟨hreply.symm, ?_⟩
    generalize ((Chain.link m h (.link a (.standard detectReuse) .empty)).draw site (some k)
      s).2 = u at hframe hworks' ⊢
    obtain ⟨⟨used, caches, asked, stores, files, rfl⟩, hused, hothers⟩ := hframe
    exact { next := hs.next
            cells := fun {x y} hxy => { hs.cells hxy with
              used := (hs.cells hxy).used.trans (hused (hinstances hxy)).symm }
            cancelled := hs.cancelled
            side := ⟨hworks', fun i hi => (hcaches i hi).trans (hothers (hown i hi)).symm,
              hrecalls, hasked⟩ }

namespace Retraces

variable (hr : Retraces B h h' m a m' τ τ' g g' s t)

include hr

theorem includes : (recalling B h h' τ τ' s t F).Includes B where
  numbers hb := .inl ⟨rfl, hb, (hr.instances _ hb).1.1, (hr.instances _ hb).1.2.1⟩
  kinds hk := suits_recalling hk (hr.kinds _ hk).2.1 (hr.kinds _ hk).2.2.1
  tokens {j} hj := by
    obtain ⟨⟨hs, ht, hτ, hτ'⟩, -⟩ := hr.tokens j hj
    exact .inr (.inl ⟨rfl, hτ, hτ', hj, hs, ht⟩)

/-- The instances of the bases have no counterparts. -/
theorem apart {x y : Nat} (hxy : (recalling B h h' τ τ' s t F).instances x y) :
    x ∉ [m, a] ∧ y ≠ m' := by
  rcases hxy with ⟨rfl, hb, -⟩ | ⟨j, rfl, rfl⟩
  · exact ⟨(hr.instances _ hb).1.2.2.1, (hr.instances _ hb).1.2.2.2⟩
  · have hmade := hr.made
    have hmade' := hr.made'
    simp only [List.forall_mem_cons] at hmade hmade'
    simp only [List.mem_cons, List.not_mem_nil, or_false]
    omega

theorem bases :
    (recalling B h h' τ τ' s t F).Bases (Chain.Succeeds h.Rereads F) g.base g'.base := by
  obtain ⟨detectReuse, hbase⟩ := hr.recorder
  rw [hbase, hr.player]
  refine ⟨fun hxy => ?_, fun hP hs => ?_⟩
  · obtain ⟨hx, hy⟩ := hr.apart hxy
    simp only [Chain.ids, List.mem_cons, List.not_mem_nil, or_false] at hx ⊢
    exact ⟨hx, hy⟩
  · refine agree_recalling hr.cache hr.cache' (fun i hi => ((hr.kinds _ hi).1).symm)
      (fun hxy he => (hr.apart hxy).1 ?_) hP hs
    rw [he]
    exact List.mem_cons_of_mem _ List.mem_cons_self

theorem sameSampler : (recalling B h h' τ τ' s t F).SameSampler B g g' where
  model := hr.model
  observed := hr.observed
  settings := hr.settings
  posterior := hr.posterior
  token := by
    have hmade := hr.made
    have hmade' := hr.made'
    simp only [List.forall_mem_cons] at hmade hmade'
    rw [hr.token, hr.token']
    exact .cons (.inl ⟨rfl, rfl, hmade.2.2.1, hmade'.2.1⟩) .nil
  blind := hr.blind

/-- At first the two states are beside each other. -/
theorem beside (live : τ ∉ s.cancelled)
    (hrecalls : ∀ d k v, h.Recalls F d k v → h'.Recalls t d k v) :
    (recalling B h h' τ τ' s t F).Beside s t where
  next j := ⟨.inr ⟨j, rfl, rfl⟩, .inr (.inr ⟨j, rfl, rfl⟩)⟩
  cells := by
    rintro x y (⟨rfl, hb, -⟩ | ⟨j, rfl, rfl⟩)
    · exact (hr.instances _ hb).2
    · exact hr.ordered.1.sameCells hr.ordered.2 (Nat.le_add_right _ _) (Nat.le_add_right _ _)
  cancelled := by
    rintro x y (⟨rfl, rfl, -⟩ | ⟨rfl, -, -, hb, -⟩ | ⟨j, rfl, rfl⟩)
    · exact iff_of_false hr.live' live
    · exact (hr.tokens _ hb).2
    · exact iff_of_false
        (fun hc => Nat.not_lt.mpr (Nat.le_add_right _ _) (hr.ordered.2.cancelled _ hc))
        fun hc => Nat.not_lt.mpr (Nat.le_add_right _ _) (hr.ordered.1.cancelled _ hc)
  side := ⟨hr.works, fun i hi => (hr.kinds _ hi).2.2.2 i rfl, hrecalls, rfl⟩

end Retraces

/-- A program that has no stores leaves the log of the store with what the store holds. -/
theorem mirrors_sample {detectReuse : Bool} {i : Nat} {path : Path} {place : Location}
    (hbase : g.base = .link m (.persistent i) (.link a (.standard detectReuse) .empty))
    (hkinds : ∀ k, B.kinds k → ∀ j, k ≠ .persistent j)
    {j : Nat} (hblind : ∀ k, g.model.IsBlind B (g.executions + k) (j + k))
    (hs : s.Mirrors i path place) : (g.sample steps s).2.2.Mirrors i path place := by
  have hstores : Shared.OfStores fun s => s.Mirrors i path place :=
    Shared.ofStores_mirrors i path place
  have hdraw (site : Site) (key : Option RandomKey) (s : Shared)
      (hs : s.Mirrors i path place) : (g.base.draw site key s).2.Mirrors i path place := by
    rw [hbase]
    exact hs.draw detectReuse site key
  refine sample_ofContents (fun hs _ => hstores hs) ?_ fun {u r} hu hs => ?_
  · have hwithin := (hblind 0).within (fun _ hk => hkinds _ hk) g.token
      (c := g.priorContext s.next)
      ((g.laidOver_priorChain (fun _ => True) s.next).mono Handler.IsLayer.ne_persistent)
    exact hwithin.keeps_stores hstores hdraw (s := g.priorStart s) (hstores hs rfl rfl)
  · have hexecutions : g.executions ≤ r.executions := by
      cases hu with
      | intro before front =>
        exact g.isInvariant_executions.launched
          (before.keeps g.isInvariant_executions fun _ => Nat.le_succ _)
    obtain ⟨k, hk⟩ := Nat.exists_eq_add_of_le hexecutions
    have hwithin := (hblind k).within (fun _ hk => hkinds _ hk) g.token
      (c := u.context g.base r.shared.next)
      ((WorkUnit.laidOver_chain (D := fun _ => True) trivial g.base _).mono
        Handler.IsLayer.ne_persistent)
    rw [← hk] at hwithin
    exact hwithin.keeps_stores hstores hdraw (s := u.prepare r.shared) (hstores hs rfl rfl)

/-- **A cache that has what another one had** in the end of a call: the same one, or, if it
is over a log, one that has been opened over that log. Before the call the log must list
what the store holds. In between anything may happen that takes nothing away. -/
inductive Inherits (s F : Shared) : Handler → Handler → Shared → Prop where
  | same (h : Handler) {t : Shared} (onward : F.Onward t) : Inherits s F h h t
  | reopened {i j : Nat} {path path' : Path} {place : Location} {entries : Log.Entries}
    {files : FileTree} {u t : Shared} (sound : s.Sound) (mirrors : s.Mirrors i path place)
    (after : Shared.After (fun _ => True) F u)
    (opened : Store.openLog u.files path' = (.ok (.log path' place entries), files))
    (onward : (u.withStore j (.log path' place entries) files).Onward t) :
    Inherits s F (.persistent i) (.persistent j) t

theorem Inherits.recalls (hi : Inherits s F h h' t) (hs : Shared.Later (fun _ => True) s F)
    (hmirrors : ∀ {i path place}, h = .persistent i → s.Mirrors i path place →
      F.Mirrors i path place)
    {d : Distribution} {k : RandomKey} {v : Json} (hv : h.Recalls F d k v) :
    h'.Recalls t d k v := by
  cases hi with
  | same _ onward => exact hv.onward onward
  | @reopened i j path path' place entries files u _ sound mirrors after opened onward =>
    obtain ⟨st, text, hst, hget, hread⟩ := hv
    obtain ⟨listed, hst', hlog⟩ := hmirrors rfl mirrors
    obtain rfl := Option.some.inj (hst.symm.trans hst')
    -- The log still lists the text, whoever has appended to it.
    obtain ⟨listed', hlog', hgains⟩ :=
      (after.retains (hs.retains sound).sound).hasLog hlog
    obtain rfl := hlog'.lists.eq_of_openLog opened
    have hthere := (u.get?_stores_withStore j j (.log path' place entries) files).trans
      (if_pos rfl)
    have hrecalls : (Handler.persistent j).Recalls
        (u.withStore j (.log path' place entries) files) d k v :=
      ⟨_, text, hthere, congrArg Except.ok (hgains.get?_eq_some (Except.ok.inj hget)), hread⟩
    exact hrecalls.onward onward

/-- **A call is repeated from its cache alone.** -/
theorem sample_recalled (hr : Retraces B h h' m a m' τ τ' g g' s t)
    (hi : Inherits s (g.sample steps s).2.2 h h' t) (draws : g.Draws steps s h.Rereads)
    (ok : (g.sample steps s).1.isValue = true) :
    SameOutcome (g.sample steps s) (g'.sample steps t)
      ∧ (g'.sample steps t).2.2.asked = t.asked := by
  obtain ⟨detectReuse, hbase⟩ := hr.recorder
  have live : τ ∉ s.cancelled := by
    have hlive := isCancelled_of_answers ok
    rw [hr.token] at hlive
    exact fun hin => Bool.eq_false_iff.mp hlive
      ((Token.isCancelled_iff _ _).mpr ⟨τ, List.mem_cons_self, hin⟩)
  have hrecalls : ∀ d k v, h.Recalls (g.sample steps s).2.2 d k v → h'.Recalls t d k v :=
    fun d k v => hi.recalls (g.later_sample steps s) fun {i path place} he hm => by
      subst he
      exact mirrors_sample hbase (fun k hk => (hr.kinds k hk).2.2.1) hr.blind hm
  have hsame := hr.sameSampler.sample hr.includes hr.bases (draws.follows ok)
    (hr.beside live hrecalls)
  exact ⟨hsame.toSameOutcome, (hsame.beside ok).side.2.2.2⟩

end Recalling

/-- A call whose units are all executed before a stage draws values if they do. -/
theorem draws_of_stages {n : Nat} (hend : (g.job.launched (g.stage steps s n)).queue = [])
    (hR : ∀ v, R v) (hprior : ∀ x ∈ g.priorTranscript s, x.2.isValue = true)
    (hunits : ∀ k < n, ∀ u ∈ (g.job.launched (g.stage steps s k)).queue.head?,
      ∀ x ∈ u.transcript g.job (g.job.launched (g.stage steps s k)).executions
        (g.job.launched (g.stage steps s k)).shared, x.2.isValue = true) :
    g.Draws steps s R := by
  have hvalue {reply : Reply} (h : reply.isValue = true) : ∃ v, R v ∧ reply = .value v := by
    obtain ⟨v, hv⟩ := Outcome.isValue_iff.mp h
    exact ⟨v, hR v, hv⟩
  refine ⟨fun x hx _ => hvalue (hprior x hx), fun {u r} hu x hx _ => hvalue ?_⟩
  obtain ⟨k, hk, rest, hq, rfl⟩ := hu.exists_stage hend
  exact hunits k hk u (by rw [hq]; rfl) x hx

/-- Nothing but the cache of `cachedBase`. -/
def cacheAlone : Chain := .link 2 (.memo 0) .empty

theorem sample_recalled_twofold :
    SameOutcome ((twofold cachedBase 3).sample 2 twofoldStart)
        ((twofold cacheAlone 4).sample 2 ((twofold cachedBase 3).sample 2 twofoldStart).2.2)
      ∧ ((twofold cacheAlone 4).sample 2
          ((twofold cachedBase 3).sample 2 twofoldStart).2.2).2.2.asked
        = ((twofold cachedBase 3).sample 2 twofoldStart).2.2.asked := by
  have hdraws : (twofold cachedBase 3).Draws 2 twofoldStart (Handler.memo 0).Rereads :=
    draws_of_stages (n := 2) (by decide +kernel) (fun _ => nofun) (by decide +kernel)
      (by decide +kernel)
  have hstart : twofoldStart.InOrder := by
    refine ⟨?_, ?_, ?_, ?_, ?_, ?_⟩ <;> decide +kernel
  have hordered : ((twofold cachedBase 3).sample 2 twofoldStart).2.2.InOrder := by
    refine ⟨?_, ?_, ?_, ?_, ?_, ?_⟩ <;> decide +kernel
  have hmade : 5 ≤ ((twofold cachedBase 3).sample 2 twofoldStart).2.2.next := by decide +kernel
  have hpair : Retraces .none (.memo 0) (.memo 0) 1 0 2 3 4 (twofold cachedBase 3)
      (twofold cacheAlone 4) twofoldStart ((twofold cachedBase 3).sample 2 twofoldStart).2.2 :=
    { recorder := ⟨false, rfl⟩, player := rfl, cache := trivial, cache' := trivial
      works := nofun, model := rfl, observed := rfl, settings := rfl, posterior := rfl
      token := rfl, token' := rfl, live' := by decide +kernel, ordered := ⟨hstart, hordered⟩
      made := by decide
      made' := fun j hj => by
        simp only [List.mem_cons, List.not_mem_nil, or_false] at hj
        omega
      blind := fun k => Inquiry.two.isBlind_through _ _ _
      instances := nofun, kinds := nofun, tokens := nofun }
  exact sample_recalled hpair (.same _ (.refl _)) hdraws (by decide +kernel)

/-- A program that draws under a thread of keys of its own. -/
def strolling : Model Unit := fun _ c =>
  .under c (.plain 5 (.thread false)) fun c => .ask c (.drawn "a" default) fun _ => .done

/-- **A thread of the program's own goes on** from the first call to the second, which so
misses the cache, and has nobody below it to ask. -/
theorem exists_missed_strolling :
    ({ twofold cachedBase 3 with model := strolling }.sample 0 twofoldStart).1
        = .value [("a", .null)]
      ∧ { twofold cachedBase 3 with model := strolling }.Draws 0 twofoldStart (fun _ => True)
      ∧ ({ twofold cacheAlone 4 with model := strolling }.sample 0
          ({ twofold cachedBase 3 with model := strolling }.sample 0 twofoldStart).2.2).1
        = .failure (.noDelegate "a") := by
  refine ⟨rfl, draws_of_stages (n := 0) ?_ (fun _ => trivial) ?_ nofun, rfl⟩
  · decide +kernel
  · decide +kernel

end Sampler

end Resampler
