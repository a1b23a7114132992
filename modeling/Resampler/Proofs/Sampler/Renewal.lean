import Resampler.Proofs.Sampler.Cancellation
import Resampler.Proofs.Sampler.Uncached

/-!
# A cancelled sampler is as good as new

A call that comes to a cancellation leaves a sampler with another token. That token has been
made after every token that was cancelled in the call, so it is not cancelled itself, and
whoever cancels the old one does not cancel it. What else the call has left in the sampler
is not looked at by the next one, which so answers as that of an equal sampler that has just
been built (`Sampler.Renews`).

Together with what the cancellation does to the call itself this is
`Sampler.contains_cancellation`. A program must not tell one sampler from another, and so it
must not count its executions either: one that is cancelled in its first execution only
answers in the next call, where a new sampler is cancelled. And in the prior pass it can
panic after the cancellation, and then no error is told
(`Sampler.uncontained_cancellations`).
-/

namespace Resampler

variable {σ : Type}

/-! ## Tokens are made before they are cancelled -/

/-- **A run in which the tokens that are cancelled or in flight have been made.** -/
structure Run.IsNumbered (n : Nat) (r : Run) : Prop where
  later : n ≤ r.shared.next
  cancelled : ∀ id ∈ r.shared.cancelled, id < r.shared.next
  flight : ∀ u ∈ r.queue, u.token.IsBelow r.shared.next

section Numbers

variable {B : Belongings} {job : Job σ} {n : Nat}

/-- A unit gives out six numbers. -/
theorem WorkUnit.next_execution (u : WorkUnit) (job : Job σ) (index : Nat) (s : Shared) :
    (u.execution job index s).2.next = s.next + 6 :=
  (u.program job index s.next).next_run (u.prepare s)

/-- **A unit cancels only tokens that have been made.** -/
theorem WorkUnit.below_execution {u : WorkUnit} {s : Shared} (index : Nat)
    (blind : ∀ i j, job.model.IsBlind B i j) (hB : ∀ id, B.tokens id → id < n)
    (hτ : job.token.IsBelow n) (hn : n ≤ s.next) (hu : u.token.IsBelow s.next)
    (hs : ∀ id ∈ s.cancelled, id < s.next) :
    ∀ id ∈ (u.execution job index s).2.cancelled, id < s.next :=
  (blind index index).below_run (fun id hid => Nat.lt_of_lt_of_le (hB id hid) hn)
    (hτ.mono hn) (c := u.context job.base s.next) hu (s := u.prepare s) hs

theorem Job.isInvariant_numbered (job : Job σ) (blind : ∀ i j, job.model.IsBlind B i j)
    (hB : ∀ id, B.tokens id → id < n) (hτ : job.token.IsBelow n) :
    job.IsInvariant (Run.IsNumbered n) where
  stops h := ⟨h.later, h.cancelled, h.flight⟩
  starts {r site d} h _ _ := by
    refine ⟨Nat.le_succ_of_le h.later, fun id hid => Nat.lt_succ_of_lt (h.cancelled id hid),
      fun u hu => ?_⟩
    show u.token.IsBelow (r.shared.next + 1)
    rcases List.mem_append.mp hu with hu | hu
    · exact (h.flight u hu).mono (Nat.le_succ _)
    · rw [List.mem_singleton.mp hu]
      exact (hτ.mono (Nat.le_succ_of_le h.later)).child (Nat.lt_succ_self _)
  aborts {r site e} h _ _ := by
    have hnext : (r.abort (.siteFailed site e)).shared.next = r.shared.next := by
      obtain ⟨c, hc⟩ := r.abort_eq (.siteFailed site e)
      rw [hc]
    refine ⟨hnext ▸ h.later, fun id hid => ?_, hnext ▸ h.flight⟩
    rw [hnext]
    rcases (Run.mem_cancelled_abort r _).mp hid with hid | ⟨u, hu, rfl⟩
    · exact h.cancelled id hid
    · exact h.flight u hu _ List.mem_cons_self
  takes {r u rest} h hq := by
    have hnext : (job.receive u { r with queue := rest }).shared.next = r.shared.next + 6 := by
      obtain ⟨c, hc⟩ := job.shared_receive u { r with queue := rest }
      rw [hc]
      exact u.next_execution job r.executions r.shared
    have hflight : ∀ u' ∈ rest, u'.token.IsBelow r.shared.next :=
      fun u' hu' => h.flight u' (hq ▸ List.mem_cons_of_mem u hu')
    have hunit := WorkUnit.below_execution r.executions blind hB hτ h.later
      (h.flight u (hq ▸ List.mem_cons_self)) h.cancelled
    refine ⟨?_, fun id hid => ?_, fun u' hu' => ?_⟩
    · rw [hnext]
      exact Nat.le_add_right_of_le h.later
    · rw [hnext]
      refine Nat.lt_add_right 6 ?_
      rcases Run.mem_cancelled_settle hid with hid | ⟨u', hu', rfl⟩
      · change id ∈ (u.resample job r.executions r.shared).2.cancelled at hid
        rw [WorkUnit.resample_snd] at hid
        exact hunit id hid
      · exact hflight u' hu' _ List.mem_cons_self
    · rw [hnext]
      rw [Job.queue_receive] at hu'
      exact (hflight u' hu').mono (Nat.le_add_right _ 6)

end Numbers

/-! ## Two bases and two tokens -/

/-- **Two worlds that differ in nothing but the bases** `a` and `a'` **and the tokens** `τ`
and `τ'` of two samplers. -/
def renewing (a a' τ τ' : Nat) : Pairing where
  instances x y := x = y ∧ x ≠ a ∧ x ≠ a'
  tokens x y := x = τ ∧ y = τ' ∨ x = y ∧ x ≠ τ ∧ x ≠ τ'
  side s t := t.caches = s.caches ∧ t.stores = s.stores ∧ t.files = s.files
  instances_iff := by
    rintro x y x' y' ⟨rfl, -⟩ ⟨rfl, -⟩
    rfl
  tokens_iff := Sampler.exchanged_iff
  side_of_eq := by
    rintro s t s' t' ⟨hcaches, hstores, hfiles⟩ hc hst hf - hc' hst' hf' -
    exact ⟨by rw [hc, hc', hcaches], by rw [hst, hst', hstores], by rw [hf, hf', hfiles]⟩

section Renewing

variable {a a' τ τ' : Nat}

/-- Every interpreter may stand in both worlds. -/
theorem suits_renewing (h : Handler) : (renewing a a' τ τ').Suits h where
  asks _ _ _ hs := hs
  caches {i s t} _ hs := by
    obtain ⟨hcaches, hstores, hfiles⟩ := hs
    have hcache : t.cache i = s.cache i := by rw [Shared.cache, hcaches, Shared.cache]
    refine ⟨hcache, fun entry v => ⟨?_, hstores, hfiles⟩⟩
    show t.caches.insert i _ = s.caches.insert i _
    rw [hcaches, hcache]
  stores {i s t} _ hs := by
    obtain ⟨hcaches, hstores, hfiles⟩ := hs
    refine ⟨by rw [Shared.store, hstores, Shared.store], hfiles, fun st files => ?_⟩
    refine ⟨hcaches, ?_, rfl⟩
    show t.stores.insert i st = s.stores.insert i st
    rw [hstores]

/-- **Two standard interpreters that do not look out for reuse answer alike.** -/
theorem agree_standards {site : Site} {key : Option RandomKey} {s t : Shared}
    (hs : (renewing a a' τ τ').Beside s t) : (renewing a a' τ τ').Agree
      ((Chain.link a (.standard false) .empty).draw site key s)
      ((Chain.link a' (.standard false) .empty).draw site key t) := by
  show (renewing a a' τ τ').Agree (Handler.drawStandard a false site key s)
    (Handler.drawStandard a' false site key t)
  unfold Handler.drawStandard
  split
  · exact ⟨rfl, hs⟩
  · exact ⟨rfl, hs⟩
  · exact ⟨rfl, { next := hs.next, cells := fun hab => { hs.cells hab with }
                  cancelled := hs.cancelled, side := hs.side }⟩

end Renewing

/-! ## Conditions on draws that always hold -/

section Always

variable {P : Chain → Site → Option RandomKey → Shared → Prop}

theorem Chain.throughout_of_forall (hP : ∀ c site key s, P c site key s) (c : Chain)
    (site : Site) (key : Option RandomKey) (s : Shared) : c.Throughout P site key s := by
  induction c generalizing site key s with
  | empty => exact hP _ _ _ _
  | link id h rest ih => exact ⟨hP _ _ _ _, fun x _ => ih _ _ _⟩
  | branch id selects alternate rest iha ihr =>
    exact ⟨hP _ _ _ _, fun _ => iha _ _ _, fun _ => ihr _ _ _⟩

theorem Program.along_of_forall (hP : ∀ c site key s, P c site key s) (p : Program σ)
    (s : Shared) : p.Along P s := by
  induction p generalizing s with
  | finish outcome locals => trivial
  | draw c site next ih => exact ⟨fun _ => c.chain.throughout_of_forall hP _ _ _, ih _ _⟩
  | scope c layer body next ihb ihn =>
    unfold Program.Along
    split
    · exact ⟨ihb _ _, ihn _ _⟩
    · exact ihn _ _
  | cancel token next ih => exact ih _

theorem Sampler.along_of_forall (hP : ∀ c site key s, P c site key s) (g : Sampler σ)
    (steps : Nat) (s : Shared) : g.Along P steps s :=
  ⟨(g.priorProgram s.next).along_of_forall hP _,
    fun {u r} _ => (u.program g.job r.executions r.shared.next).along_of_forall hP _⟩

end Always

namespace Sampler

variable {B : Belongings} {a a' τ' : Nat} {g f : Sampler σ} {steps : Nat} {s t : Shared}
variable {e : Error}

/-! ## The state that a call leaves -/

/-- **A sampler that a cancellation does not wear out**, in the state in which it is
called. -/
structure IsRenewable (B : Belongings) (a : Nat) (g : Sampler σ) (s : Shared) : Prop where
  /-- Below it is a standard interpreter that does not look out for reuse. -/
  base : g.base = .link a (.standard false) .empty
  /-- The interpreter and the tokens have been made. -/
  made : a < s.next
  token : g.token.IsBelow s.next
  cancelled : ∀ id ∈ s.cancelled, id < s.next
  /-- The program does not look into what it is handed, nor does it count its executions. -/
  blind : ∀ i j, g.model.IsBlind B i j
  /-- It has the interpreter from nowhere else, and its own tokens have been made. -/
  instances : ∀ j, B.numbers j → j ≠ a
  tokens : ∀ j, B.tokens j → j < s.next

/-- The prior pass cancels only tokens that have been made. -/
theorem IsRenewable.numbered_priorPass (h : g.IsRenewable B a s) :
    s.next ≤ (g.priorPass s).2.2.next
      ∧ ∀ id ∈ (g.priorPass s).2.2.cancelled, id < (g.priorPass s).2.2.next := by
  have hnext : (g.priorPass s).2.2.next = s.next + 4 :=
    (g.priorProgram s.next).next_run (g.priorStart s)
  have hmade : s.next ≤ s.next + 4 := Nat.le_add_right _ _
  have hcontext : (g.priorContext s.next).token.IsBelow (s.next + 4) :=
    (h.token.mono hmade).child (Nat.lt_succ_self _)
  have hcancelled := (h.blind g.executions g.executions).below_run
    (fun id hid => Nat.lt_of_lt_of_le (h.tokens id hid) hmade) (h.token.mono hmade) hcontext
    (s := g.priorStart s) fun id hid => Nat.lt_of_lt_of_le (h.cancelled id hid) hmade
  rw [hnext]
  exact ⟨hmade, hcancelled⟩

/-- So does the rest of the call. -/
theorem IsRenewable.numbered_lastRun (h : g.IsRenewable B a s) {trace : Trace} {s' : Shared}
    (hb : g.Begins s trace s') : (g.lastRun steps trace s').IsNumbered s.next :=
  lastRun_keeps (g.job.isInvariant_numbered h.blind h.tokens h.token)
    (fun {trace' s''} hb' => by
      have hpass := h.numbered_priorPass
      rw [hb'.passed] at hpass
      exact ⟨hpass.1, hpass.2, nofun⟩) hb

/-- **A call that fails** comes to its error after the prior pass, or in its last run. -/
theorem exists_ended_of_failure {Q : Shared → Prop} (hprior : Q (g.priorPass s).2.2)
    (hlast : ∀ {trace s'}, g.Begins s trace s' → Q (g.lastRun steps trace s').shared)
    (he : (g.sample steps s).1 = .failure e) :
    ∃ g' s', g.sample steps s = ended g' s' (.error e) ∧ Q s'
      ∧ ∃ trace counts executions,
        g' = { g with trace := trace, counts := counts, executions := executions } := by
  rcases hp : g.priorPass s with ⟨outcome, trace, s'⟩
  rw [hp] at hprior
  have hended (g' : Sampler σ) (s' : Shared) (result) (h : g.sample steps s = g'.ended s' result) :
      g.sample steps s = g'.ended s' (.error e) := by
    rw [h] at he
    cases result with
    | ok values => cases he
    | error e' =>
      cases he
      exact h
  cases outcome with
  | panic payload => simp [sample, hp] at he
  | failure e' =>
    exact ⟨_, s', hended _ _ (.error e') (by simp only [sample, hp]; rfl), hprior, _, _, _, rfl⟩
  | value x =>
    cases hv : g.unvisited trace with
    | some site =>
      exact ⟨_, s', hended _ _ (.error (.unobservedSite site)) (by simp only [sample, hp, hv]; rfl),
        hprior, _, _, _, rfl⟩
    | none =>
      have hb : g.Begins s trace s' := ⟨hp, hv⟩
      exact ⟨_, _, hended _ _ _ (sample_of_begins hb), hlast hb, _, _, _, rfl⟩

/-! ## The next call -/

/-- **What a cancelled call leaves**: a token that has just been made, and nothing else that
a call depends on. -/
structure Recovers (g : Sampler σ) (s : Shared) (out : Sampler σ × Shared) : Prop where
  token : ∃ τ, out.1.token = .ofId τ ∧ s.next ≤ τ ∧ τ < out.2.next ∧ τ ∉ out.2.cancelled
  rest : ∃ trace counts phase executions, out.1 = { g with
    trace := trace, counts := counts, phase := phase, executions := executions
    token := out.1.token }

/-- **A call that comes to a cancellation recovers.** -/
theorem IsRenewable.recovers (h : g.IsRenewable B a s)
    (he : (g.sample steps s).1 = .failure e) (hc : e.isCancelled = true) :
    g.Recovers s (g.sample steps s).2 := by
  obtain ⟨g', s', hended, ⟨hnext, hcancelled⟩, trace, counts, executions, rfl⟩ :=
    exists_ended_of_failure
      (Q := fun t => s.next ≤ t.next ∧ ∀ id ∈ t.cancelled, id < t.next)
      h.numbered_priorPass (fun hb =>
        have hnumbered := h.numbered_lastRun hb
        ⟨hnumbered.later, hnumbered.cancelled⟩) he
  have hconclude : (g.sample steps s).2 = ({ g with
      trace := trace, counts := counts, phase := .cancelled, executions := executions
      token := .ofId s'.next }, { s' with next := s'.next + 1 }) := by
    rw [hended]
    simp [ended, conclude, hc, Shared.newToken, Shared.fresh]
  rw [hconclude]
  exact ⟨⟨s'.next, rfl, hnext, Nat.lt_succ_self _, fun hin => Nat.lt_irrefl _ (hcancelled _ hin)⟩,
    _, _, _, _, rfl⟩

/-- **A sampler that is equal to another**, over a standard interpreter `a'` and with a token
`τ'`, as one is that has just been built. -/
structure IsCopy (B : Belongings) (a' τ' : Nat) (g f : Sampler σ) (t : Shared) : Prop where
  base : f.base = .link a' (.standard false) .empty
  model : f.model = g.model
  observed : f.observed = g.observed
  settings : f.settings = g.settings
  posterior : f.posterior = g.posterior
  token : f.token = .ofId τ'
  /-- The token is not cancelled. -/
  live : τ' ∉ t.cancelled
  /-- The interpreter and the token have been made. -/
  made : a' < t.next ∧ τ' < t.next
  /-- The program has them from nowhere else. -/
  instances : ∀ j, B.numbers j → j ≠ a'
  tokens : ∀ j, B.tokens j → j ≠ τ'

section Twins

variable {out : Sampler σ × Shared} {τ : Nat}

/-- At first the state is beside itself. -/
theorem IsCopy.beside (hf : IsCopy B a' τ' g f t) (ha : a < t.next) (hτ : τ < t.next)
    (live : τ ∉ t.cancelled) : (renewing a a' τ τ').Beside t t where
  next j := by
    have hmade := hf.made
    exact ⟨⟨rfl, by omega, by omega⟩, .inr ⟨rfl, by omega, by omega⟩⟩
  cells := by
    rintro x y ⟨rfl, -⟩
    exact ⟨rfl, rfl, rfl, rfl, rfl⟩
  cancelled := by
    rintro x y (⟨rfl, rfl⟩ | ⟨rfl, -⟩)
    · exact iff_of_false hf.live live
    · rfl
  side := ⟨rfl, rfl, rfl⟩

theorem IsRenewable.includes (h : g.IsRenewable B a s) (hf : IsCopy B a' τ' g f t)
    (hτ : s.next ≤ τ) : (renewing a a' τ τ').Includes B where
  numbers {j} hj := ⟨rfl, h.instances j hj, hf.instances j hj⟩
  kinds _ := suits_renewing _
  tokens {j} hj := .inr ⟨rfl, Nat.ne_of_lt (Nat.lt_of_lt_of_le (h.tokens j hj) hτ), hf.tokens j hj⟩

theorem bases_renewing (hg : g.base = .link a (.standard false) .empty)
    (hf : f.base = .link a' (.standard false) .empty) (τ τ' : Nat) :
    (renewing a a' τ τ').Bases (fun _ _ _ _ => True) g.base f.base where
  apart := by
    rintro x y ⟨rfl, hx, hx'⟩
    rw [hg, hf]
    exact ⟨fun hin => hx (List.mem_singleton.mp hin), fun hin => hx' (List.mem_singleton.mp hin)⟩
  agree _ hs := by
    rw [hg, hf]
    exact agree_standards hs

/-- **A sampler that has recovered answers as an equal one that has just been built.** -/
theorem Recovers.sample (hr : g.Recovers s out) (h : g.IsRenewable B a s) (n : Nat)
    (hnext : out.2.next ≤ t.next) (live : t.isCancelled out.1.token = false)
    (hf : IsCopy B a' τ' g f t) : SameOutcome (out.1.sample n t) (f.sample n t) := by
  obtain ⟨⟨τ, htoken, hτ, hτout, -⟩, trace, counts, phase, executions, hout⟩ := hr
  have hτlive : τ ∉ t.cancelled := by
    rw [htoken, Shared.isCancelled_ofId] at live
    exact of_decide_eq_false live
  have hbase : out.1.base = .link a (.standard false) .empty := by
    rw [hout]
    exact h.base
  have ha : a < t.next := by
    have hmade := h.made
    omega
  have hsame : (renewing a a' τ τ').SameSampler B out.1 f := by
    refine ⟨?_, ?_, ?_, ?_, ?_, fun k => ?_⟩
    · rw [hout]
      exact hf.model
    · rw [hout]
      exact hf.observed
    · rw [hout]
      exact hf.settings
    · rw [hout]
      exact hf.posterior
    · rw [htoken, hf.token]
      exact .cons (.inl ⟨rfl, rfl⟩) .nil
    · rw [hout]
      exact h.blind _ _
  have halong : out.1.Along (fun _ _ _ _ => True) n t :=
    along_of_forall (fun _ _ _ _ => trivial) _ _ _
  exact (hsame.sample (h.includes hf hτ) (bases_renewing hbase hf.base τ τ') halong.follows
    (hf.beside ha (by omega) hτlive)).toSameOutcome

end Twins

/-- **A call that leaves its sampler as good as new.** -/
structure Renews (B : Belongings) (g : Sampler σ) (steps : Nat) (s : Shared) : Prop where
  /-- The sampler has a token that is not cancelled. -/
  live : (g.sample steps s).2.2.isCancelled (g.sample steps s).2.1.token = false
  /-- Whoever cancels the old one does not cancel it. -/
  apart : ∀ t : Shared, (t.cancel g.token).isCancelled (g.sample steps s).2.1.token
    = t.isCancelled (g.sample steps s).2.1.token
  /-- The next call, whatever has happened since, the old token cancelled or not, answers as
  that of an equal sampler that has just been built. -/
  alike : ∀ {t : Shared} {f : Sampler σ} {a' τ' : Nat} (n : Nat),
    (g.sample steps s).2.2.next ≤ t.next →
    t.isCancelled (g.sample steps s).2.1.token = false → IsCopy B a' τ' g f t →
    SameOutcome ((g.sample steps s).2.1.sample n t) (f.sample n t)

theorem IsRenewable.renews (h : g.IsRenewable B a s) (he : (g.sample steps s).1 = .failure e)
    (hc : e.isCancelled = true) : g.Renews B steps s := by
  have hr : g.Recovers s (g.sample steps s).2 := h.recovers he hc
  refine ⟨?_, fun t => ?_, fun n hnext live hf => hr.sample h n hnext live hf⟩
  all_goals
    obtain ⟨τ, htoken, hτ, -, hlive⟩ := hr.token
    rw [htoken]
  · rw [Shared.isCancelled_ofId]
    exact decide_eq_false hlive
  · have hold : τ ≠ g.token.id :=
      Nat.ne_of_gt (Nat.lt_of_lt_of_le (h.token _ List.mem_cons_self) hτ)
    rw [Shared.isCancelled_ofId, Shared.isCancelled_ofId]
    exact decide_eq_decide.mpr ⟨fun hin => (List.mem_cons.mp hin).resolve_left hold,
      List.mem_cons_of_mem _⟩

/-! ## Cancellation is contained -/

/-- **A cancellation stops the call and nothing else.** Whenever the token of a sampler is
cancelled, before a call or anywhere in it, the call stops cleanly. A call that comes to a
cancellation leaves the sampler as good as new, if the program tells neither samplers nor
its executions apart. -/
theorem contains_cancellation (g : Sampler σ) (steps : Nat) (s : Shared) :
    ((g.sample steps s).2.2.isCancelled g.token = true → g.StopsCleanly steps s)
      ∧ ∀ {B a e}, g.IsRenewable B a s → (g.sample steps s).1 = .failure e →
        e.isCancelled = true → g.Renews B steps s :=
  ⟨stopsCleanly_of_cancelled, fun h he hc => h.renews he hc⟩

/-- A sampler of a model over a standard interpreter, that resamples every site to one. -/
def single (model : Model Unit) (base token : Nat) : Sampler Unit :=
  .create model [] .standard (fun _ _ => .ok ⟨.null, fun _ => .value (.ofNat 1)⟩)
    (.link base (.standard false) .empty) (.ofId token)

/-- A program with a token of its own. It cancels its sampler as soon as it draws something
else than `null`, but only once, which it tells by that token. -/
def relenting : Model Unit := fun x c =>
  .ask c (.drawn "a" default) fun v =>
    .draw ⟨.empty, .ofId 2⟩ (.seen "b" default .null) fun
      | .value _ =>
        if v.same .null then .done
        else .cancel (.ofId 2) (.cancel (x.sampler.getD default) .done)
      | _ => .done

/-- What it has of its own. -/
def ownsToken : Belongings := ⟨fun _ => False, fun _ => False, (· = 2)⟩

theorem isBlind_relenting (i j : Nat) : Model.IsBlind ownsToken relenting i j := by
  intro C T hrelates τ τ' c c' hτ hc
  have hown : ownsToken.HasToken (.ofId 2) := fun id hid => List.mem_singleton.mp hid
  unfold relenting Program.ask
  refine .draw hc fun reply => ?_
  cases reply with
  | failure e => exact .finish _ _
  | panic payload => exact .finish _ _
  | value v =>
    refine .draw (hrelates.contexts ⟨trivial, hown⟩) fun reply => ?_
    cases reply with
    | failure e => exact .finish _ _
    | panic payload => exact .finish _ _
    | value w =>
      dsimp only
      split
      · exact .finish _ _
      · exact .cancel (hrelates.tokens hown) (.cancel hτ (.finish _ _))

/-- **The first call is cancelled by its first unit, the next one answers.** -/
theorem contains_cancellation_relenting :
    (single relenting 0 1).StopsCleanly 2 twofoldStart
      ∧ SameOutcome
        (((single relenting 0 1).sample 2 twofoldStart).2.1.sample 2
          ((single relenting 0 1).sample 2 twofoldStart).2.2)
        ((single relenting 3 4).sample 2 ((single relenting 0 1).sample 2 twofoldStart).2.2)
      ∧ ((single relenting 3 4).sample 2 ((single relenting 0 1).sample 2 twofoldStart).2.2).1
        = .value [("a", .ofNat 1)] := by
  have hcancelled : ((single relenting 0 1).sample 2 twofoldStart).2.2.isCancelled (.ofId 1)
      = true := by decide +kernel
  have hanswer : ((single relenting 0 1).sample 2 twofoldStart).1 = .failure .cancelled := rfl
  have hnew : 4 ∉ ((single relenting 0 1).sample 2 twofoldStart).2.2.cancelled
      ∧ 5 ≤ ((single relenting 0 1).sample 2 twofoldStart).2.2.next := by decide +kernel
  have hrenewable : (single relenting 0 1).IsRenewable ownsToken 0 twofoldStart :=
    { base := rfl, made := by decide
      token := fun id hid => by cases List.mem_singleton.mp hid; decide
      cancelled := nofun, blind := isBlind_relenting, instances := nofun
      tokens := by rintro j rfl; decide }
  obtain ⟨hstops, hrenews⟩ := contains_cancellation (single relenting 0 1) 2 twofoldStart
  have hnext := hrenews hrenewable hanswer rfl
  have hcopy : IsCopy ownsToken 3 4 (single relenting 0 1) (single relenting 3 4)
      ((single relenting 0 1).sample 2 twofoldStart).2.2 :=
    { base := rfl, model := rfl, observed := rfl, settings := rfl, posterior := rfl
      token := rfl, live := hnew.1, made := by omega
      instances := nofun, tokens := by rintro j rfl; decide }
  exact ⟨hstops hcancelled, hnext.alike 2 (Nat.le_refl _) hnext.live hcopy, rfl⟩

/-- A program that cancels its sampler and panics. -/
def reckless : Model Unit := fun x _ =>
  .cancel (x.sampler.getD default) (.finish (.panic (some "boom")) ())

/-- A program that cancels its sampler in its first execution. -/
def fickle : Model Unit := fun x c =>
  if x.index = 0 then .cancel (x.sampler.getD default) .done
  else .ask c (.drawn "a" default) fun _ => .done

/-- **A cancellation is not contained** where the prior pass panics after it: no error is
told. And a program that counts its executions is cancelled in the first of them only, so
that the next call answers, while a sampler that has just been built is cancelled. Both stop
at the first failing draw. -/
theorem uncontained_cancellations :
    ((∀ x c, (reckless x c).Stops)
        ∧ ((single reckless 0 1).sample 0 twofoldStart).2.2.isCancelled (.ofId 1) = true
        ∧ ((single reckless 0 1).sample 0 twofoldStart).1 = .panic (some "boom"))
      ∧ (∀ x c, (fickle x c).Stops)
      ∧ ((single fickle 0 1).sample 0 twofoldStart).1 = .failure .cancelled
      ∧ (((single fickle 0 1).sample 0 twofoldStart).2.1.sample 0
          ((single fickle 0 1).sample 0 twofoldStart).2.2).1 = .value [("a", .null)]
      ∧ ((single fickle 3 4).sample 0 ((single fickle 0 1).sample 0 twofoldStart).2.2).1
        = .failure .cancelled := by
  refine ⟨⟨fun x c => nofun, by decide +kernel, rfl⟩, fun x c => ?_, rfl, rfl, rfl⟩
  unfold fickle
  split
  · exact nofun
  · exact Program.stops_ask fun _ => Program.stops_done

end Sampler

end Resampler
