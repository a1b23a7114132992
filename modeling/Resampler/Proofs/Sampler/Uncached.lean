import Resampler.Proofs.Chain.Cache
import Resampler.Proofs.Sampler.Parallel

/-!
# A cache under a sampler does not show

A sampler whose base is a cache over a standard interpreter answers as one without the
cache. The cache may have been warmed by anything that feeds it from a plain chain, sample
calls among it (`Shared.Warmed.sample`), so it is honest, and an honest cache answers as
the distribution does. It goes on being honest through the call, whatever fails in it.

What the program may not do is get hold of the base itself. One that installs the cache
in a scope is refused by the sampler with the cache, and is not by the other one
(`Sampler.reentrant_prying`).
-/

namespace Resampler

variable {σ : Type} {U : Distribution → Prop} {I : Nat → Prop}

/-! ## What warms a cache -/

namespace Shared

variable {s t : Shared}

theorem ofContents_warmed (U : Distribution → Prop) (I : Nat → Prop) (s : Shared) :
    OfContents (s.Warmed U I) :=
  fun {s t} h hcaches _ _ => h.elsewhere fun i _ => by
    unfold cache
    rw [hcaches]

/-- **A program warms caches** with what it draws, if that feeds them from plain chains. -/
theorem Warmed.run (h : s.Warmed U I t) {p : Program σ} (hp : p.Along (Feeds U I) t) :
    s.Warmed U I (p.run t).2 := by
  induction p generalizing t with
  | finish outcome locals => exact h
  | draw c site next ih =>
    rw [Program.run_draw]
    refine ih _ ?_ hp.2
    unfold Context.draw
    split
    · exact h
    · next hlive => exact h.draw c.chain site none (hp.1 (Bool.eq_false_iff.mpr hlive))
  | scope c layer body next ihb ihn =>
    unfold Program.Along at hp
    split at hp
    · next ha =>
      rw [Program.run_scope_of_admits ha]
      have hopen : s.Warmed U I (t.install layer.id) := h.elsewhere fun _ _ => rfl
      have hbody := ihb _ hopen hp.1
      exact ihn _ (hbody.elsewhere fun _ _ => rfl) hp.2
    · next ha =>
      rw [Program.run_scope_of_not_admits ha]
      exact ihn _ h hp
  | cancel token next ih =>
    have hcancelled : s.Warmed U I (t.cancel token) := h.elsewhere fun _ _ => rfl
    exact ih hcancelled hp

/-- **A sample call warms caches**, whatever it answers. -/
theorem Warmed.sample (h : s.Warmed U I t) {g : Sampler σ} {steps : Nat}
    (hg : g.Along (Feeds U I) steps t) : s.Warmed U I (g.sample steps t).2.2 := by
  have hstart : s.Warmed U I (g.priorStart t) := h.elsewhere fun _ _ => rfl
  refine Sampler.sample_ofContents (ofContents_warmed U I s) (hstart.run hg.prior) ?_
  intro u r hu hr
  have hprepared : s.Warmed U I (u.prepare r.shared) := hr.elsewhere fun _ _ => rfl
  exact hprepared.run (hg.units hu)

end Shared

/-! ## With and without the cache -/

/-- What is drawn from a chain is among the distributions that identities tell apart. -/
def DrawsFrom (U : Distribution → Prop) (base c : Chain) (site : Site)
    (_ : Option RandomKey) (_ : Shared) : Prop :=
  c = base → site.observed = none → U site.distribution

namespace Sampler

variable {B : Belongings} {i m a a' τ τ' : Nat} {g g' : Sampler σ} {s : Shared}

/-- **Two samplers, over a standard interpreter `a'` and over a cache `i` on one**, equal
but for that, their tokens `τ` and `τ'`, and what they have been used for. -/
structure Uncaches (B : Belongings) (i m a a' τ τ' : Nat) (g g' : Sampler σ) (s : Shared) :
    Prop where
  cached : g.base = .link m (.memo i) (.link a (.standard false) .empty)
  plain : g'.base = .link a' (.standard false) .empty
  model : g'.model = g.model
  observed : g'.observed = g.observed
  settings : g'.settings = g.settings
  posterior : g'.posterior = g.posterior
  token : g.token = .ofId τ
  token' : g'.token = .ofId τ'
  /-- The tokens are not cancelled. -/
  live : τ ∉ s.cancelled ∧ τ' ∉ s.cancelled
  /-- The instances and the tokens have been made. -/
  made : ∀ j ∈ [m, a, a', τ, τ'], j < s.next
  /-- The program is handed the base, the cache and the token, and does not look into what it
  is handed. -/
  blind : ∀ k, g.model.IsBlind B (g.executions + k) (g'.executions + k)
  /-- It has them from nowhere else. -/
  instances : ∀ j, B.numbers j → j ∉ [m, a, a']
  kinds : ∀ h, B.kinds h → h ≠ .memo i
  tokens : ∀ j, B.tokens j → j ≠ τ ∧ j ≠ τ'

/-- Nothing corresponds to two, where one number is exchanged for another and nothing else
is. -/
theorem exchanged_iff {x y x' y' : Nat} (h : x = τ ∧ y = τ' ∨ x = y ∧ x ≠ τ ∧ x ≠ τ')
    (h' : x' = τ ∧ y' = τ' ∨ x' = y' ∧ x' ≠ τ ∧ x' ≠ τ') : x = x' ↔ y = y' := by
  rcases h with ⟨rfl, rfl⟩ | ⟨rfl, hx, hx'⟩
  · rcases h' with ⟨rfl, rfl⟩ | ⟨rfl, hy, hy'⟩
    · exact iff_of_true rfl rfl
    · exact iff_of_false (Ne.symm hy) (Ne.symm hy')
  · rcases h' with ⟨rfl, rfl⟩ | ⟨rfl, -, -⟩
    · exact iff_of_false hx hx'
    · rfl

/-- **The state with the cache beside the one without**: they differ in what the cache holds
and in what has been asked. -/
def uncaching (U : Distribution → Prop) (i m a a' τ τ' : Nat) : Pairing where
  instances x y := x = y ∧ x ∉ [m, a, a']
  tokens x y := x = τ ∧ y = τ' ∨ x = y ∧ x ≠ τ ∧ x ≠ τ'
  side s t := s.Honest U (· = i) ∧ (∀ j, j ≠ i → t.cache j = s.cache j)
    ∧ t.stores = s.stores ∧ t.files = s.files
  instances_iff := by
    rintro x y x' y' ⟨rfl, -⟩ ⟨rfl, -⟩
    rfl
  tokens_iff := exchanged_iff
  side_of_eq := by
    rintro s t s' t' ⟨hhonest, hothers, hstores, hfiles⟩ hc hst hf - hc' hst' hf' -
    have hcache (j : Nat) : s'.cache j = s.cache j := by rw [Shared.cache, hc, Shared.cache]
    have hcache' (j : Nat) : t'.cache j = t.cache j := by rw [Shared.cache, hc', Shared.cache]
    refine ⟨hhonest.of_eq fun j _ => hcache j, fun j hj => ?_, ?_, ?_⟩
    · rw [hcache, hcache', hothers j hj]
    · rw [hst, hst', hstores]
    · rw [hf, hf', hfiles]

/-- Every interpreter but the cache may stand in both worlds. -/
theorem suits_uncaching {h : Handler} (hne : h ≠ .memo i) :
    (uncaching U i m a a' τ τ').Suits h where
  asks {_ s t} site k _ hs := by
    obtain ⟨hhonest, hothers, hstores, hfiles⟩ := hs
    exact ⟨hhonest.of_eq fun _ _ => rfl, hothers, hstores, hfiles⟩
  caches {j s t} he hs := by
    obtain ⟨hhonest, hothers, hstores, hfiles⟩ := hs
    have hji : j ≠ i := fun hj => hne (hj ▸ he)
    refine ⟨hothers j hji, fun entry v => ⟨hhonest.of_eq fun l hl => ?_, fun l hl => ?_,
      hstores, hfiles⟩⟩
    · have hjl : j ≠ l := fun hj => hji (hj.trans hl)
      rw [Shared.cache_remember, if_neg hjl]
    · rw [Shared.cache_remember, Shared.cache_remember, hothers j hji, hothers l hl]
  stores {j s t} _ hs := by
    obtain ⟨hhonest, hothers, hstores, hfiles⟩ := hs
    refine ⟨by rw [Shared.store, hstores, Shared.store], hfiles, fun st files => ?_⟩
    refine ⟨hhonest.of_eq fun _ _ => rfl, hothers, ?_, rfl⟩
    show t.stores.insert j st = s.stores.insert j st
    rw [hstores]

/-- **An honest cache over a standard interpreter answers as the interpreter alone.** -/
theorem agree_uncached (hU : Distinguished U) {site : Site} {key : Option RandomKey}
    {s t : Shared} (hd : site.observed = none → U site.distribution)
    (hs : (uncaching U i m a a' τ τ').Beside s t) :
    (uncaching U i m a a' τ τ').Agree
      ((Chain.link m (.memo i) (.link a (.standard false) .empty)).draw site key s)
      ((Chain.link a' (.standard false) .empty).draw site key t) := by
  have hplain : (Chain.link m (.memo i) (.link a (.standard false) .empty)).IsPlain (· = i) :=
    ⟨rfl, trivial⟩
  cases ho : site.observed with
  | some v =>
    have hplain' : (Chain.link a' (.standard false) .empty).IsPlain (· = i) := trivial
    rw [hplain.draw_observed ho, hplain'.draw_observed ho]
    exact ⟨rfl, hs⟩
  | none =>
    cases key with
    | none =>
      have hcached : (Chain.link m (.memo i) (.link a (.standard false) .empty)).draw site
          none s = (.failure (.missingKey site.name), s) := by
        show Handler.drawMemo i _ site none s = _
        unfold Handler.drawMemo
        rw [ho]
      have hstandard : (Chain.link a' (.standard false) .empty).draw site none t
          = (.failure (.missingKey site.name), t) := by
        show Handler.drawStandard a' false site none t = _
        unfold Handler.drawStandard
        rw [ho]
      rw [hcached, hstandard]
      exact ⟨rfl, hs⟩
    | some k =>
      obtain ⟨hhonest, hothers, hstores, hfiles⟩ := hs.side
      have hasked := hplain.asked hU ho (hd ho) k hhonest
      have hstandard : (Chain.link a' (.standard false) .empty).draw site (some k) t
          = (site.ask k, t.noteAsked site k) := by
        show Handler.drawStandard a' false site (some k) t = _
        unfold Handler.drawStandard
        rw [ho]
        rfl
      rw [hstandard]
      obtain ⟨caches, asked, hframe⟩ := hasked.frame
      refine ⟨hasked.reply.symm, ?_⟩
      have hside := hasked.honest
      have hrest := hasked.others
      rw [hframe] at hside hrest ⊢
      exact { next := hs.next, cells := fun hab => { hs.cells hab with }
              cancelled := hs.cancelled
              side := ⟨hside, fun j hj => (hothers j hj).trans (hrest j hj).symm, hstores,
                hfiles⟩ }

variable {s₀ : Shared} {steps : Nat}

/-- At first the state is beside itself. -/
theorem Uncaches.beside (h : Uncaches B i m a a' τ τ' g g' s) (hs : s.Honest U (· = i)) :
    (uncaching U i m a a' τ τ').Beside s s where
  next j := by
    have hne : ∀ l ∈ [m, a, a', τ, τ'], s.next + j ≠ l := fun l hl he =>
      absurd (h.made l hl) (by omega)
    simp only [List.forall_mem_cons] at hne
    obtain ⟨hm, ha, ha', hτ, hτ', -⟩ := hne
    refine ⟨⟨rfl, ?_⟩, .inr ⟨rfl, hτ, hτ'⟩⟩
    simp only [List.mem_cons, hm, ha, ha', List.not_mem_nil, or_self, not_false_eq_true]
  cells := by
    rintro x y ⟨rfl, -⟩
    exact ⟨rfl, rfl, rfl, rfl, rfl⟩
  cancelled := by
    rintro x y (⟨rfl, rfl⟩ | ⟨rfl, -⟩)
    · exact iff_of_false h.live.2 h.live.1
    · rfl
  side := ⟨hs, fun _ _ => rfl, rfl, rfl⟩

theorem Uncaches.includes (h : Uncaches B i m a a' τ τ' g g' s) :
    (uncaching U i m a a' τ τ').Includes B where
  numbers ha := ⟨rfl, h.instances _ ha⟩
  kinds hh := suits_uncaching (h.kinds _ hh)
  tokens ha := .inr ⟨rfl, h.tokens _ ha⟩

theorem Uncaches.bases (hU : Distinguished U) (h : Uncaches B i m a a' τ τ' g g' s) :
    (uncaching U i m a a' τ τ').Bases (DrawsFrom U g.base) g.base g'.base where
  apart := by
    rintro x y ⟨rfl, hx⟩
    rw [h.cached, h.plain]
    simp only [List.mem_cons, not_or, Chain.ids] at hx ⊢
    exact ⟨⟨hx.1, hx.2.1, hx.2.2.2⟩, hx.2.2⟩
  agree {site key s t} hd hs := by
    rw [h.cached, h.plain]
    exact agree_uncached hU (hd rfl) hs

theorem Uncaches.sameSampler (h : Uncaches B i m a a' τ τ' g g' s) :
    (uncaching U i m a a' τ τ').SameSampler B g g' where
  model := h.model
  observed := h.observed
  settings := h.settings
  posterior := h.posterior
  token := by
    rw [h.token, h.token']
    exact .cons (.inl ⟨rfl, rfl⟩) .nil
  blind := h.blind

/-- **A cache under a sampler changes no answer.** What has warmed it may be anything that
feeds it from plain chains, sample calls through the sampler itself among it, whatever they
came to. The distributions that are drawn must be told apart by their identities, and the
program may not look into what it is handed. -/
theorem sample_uncached (hU : Distinguished U) (h : Uncaches B i m a a' τ τ' g g' s)
    (cold : s₀.cache i = .empty) (warmed : s₀.Warmed U (· = i) s)
    (draws : g.Along (DrawsFrom U g.base) steps s) :
    SameOutcome (g.sample steps s) (g'.sample steps s) := by
  have hempty : s₀.Honest U (· = i) := Shared.honest_of_empty fun j hj => hj ▸ cold
  have hhonest := warmed.honest hU hempty
  exact (h.sameSampler.sample h.includes (h.bases hU) draws.follows
    (h.beside hhonest)).toSameOutcome

end Sampler

/-! ## Programs that only ask -/

/-- **A condition that whatever is drawn fulfils**, if it is among some distributions: in the
base, and at every layer over it that is no cache. -/
structure Chain.Spreads (U : Distribution → Prop)
    (P : Chain → Site → Option RandomKey → Shared → Prop) (base : Chain) : Prop where
  base : ∀ {site key s}, (site.observed = none → U site.distribution) →
    base.Throughout P site key s
  layer : ∀ {c site key s}, (∀ id i rest, c ≠ .link id (.memo i) rest) →
    (site.observed = none → U site.distribution) → P c site key s

namespace Chain

variable {P : Chain → Site → Option RandomKey → Shared → Prop} {base c : Chain}

/-- Such a condition holds all along what a sampler lays over the base. -/
theorem Spreads.throughout (h : base.Spreads U P)
    (hc : base.LaidOver (fun _ h => h.IsLayer U) c) {site : Site} {key : Option RandomKey}
    {s : Shared} (hd : site.observed = none → U site.distribution) :
    c.Throughout P site key s := by
  induction hc generalizing site key s with
  | inner => exact h.base hd
  | empty => exact h.layer nofun hd
  | @link id handler rest ok _ ih =>
    have hlayer : ∀ id' i rest', Chain.link id handler rest ≠ .link id' (.memo i) rest' := by
      rintro id' i rest' ⟨⟩
      exact ok
    refine ⟨h.layer hlayer hd, fun x hx => ih fun ho => ?_⟩
    by_cases hsub : ∃ d, handler = .substitute d
    · obtain ⟨d, rfl⟩ := hsub
      cases hx
      exact ok
    · have hsite := Handler.site_of_handed hx fun d hh => hsub ⟨d, hh⟩
      rw [hsite] at ho ⊢
      exact hd ho
  | branch _ _ iha ihr => exact ⟨h.layer nofun hd, fun _ => iha hd, fun _ => ihr hd⟩

/-- A plain chain feeds its caches, and nobody else does. -/
theorem IsPlain.spreads_feeds (hc : base.IsPlain I) : base.Spreads U (Feeds U I) where
  base hd := hc.feeds hd _ _
  layer {c site key s} hc _ := by
    unfold Feeds
    split
    · exact absurd rfl (hc _ _ _)
    · trivial

/-- What is drawn through a plain chain is drawn as it is. -/
theorem IsPlain.spreads_drawsFrom (hc : base.IsPlain I) (base' : Chain) :
    base.Spreads U (DrawsFrom U base') where
  base hd := hc.throughout (fun _ _ _ _ _ => hd) _ _
  layer _ hd _ := hd

end Chain

/-- An inquiry draws what it asks for. -/
theorem Inquiry.along_through {P : Chain → Site → Option RandomKey → Shared → Prop}
    {base : Chain} (hbase : base.Spreads U P) {q : Inquiry σ}
    (hq : q.Asks fun site => site.observed = none → U site.distribution) {c : Context}
    (hc : base.LaidOver (fun _ h => h.IsLayer U) c.chain) (s : Shared) :
    (q.through c).Along P s := by
  induction q generalizing s with
  | finish outcome locals => trivial
  | ask site next ih => exact ⟨fun _ => hbase.throughout hc hq.1, ih _ (hq.2 _) _⟩

namespace Sampler

variable {P : Chain → Site → Option RandomKey → Shared → Prop} {g : Sampler σ} {s : Shared}

/-- What is resampled is among some distributions, if all local posteriors are. -/
theorem isInvariant_posterior (hpost : ∀ {site t d}, g.posterior site t = .ok d → U d) :
    g.job.IsInvariant fun r => ∀ u ∈ r.queue, U u.posterior where
  stops h := h
  starts {r site d} h _ hd u hu := by
    rcases List.mem_append.mp hu with hu | hu
    · exact h u hu
    · rw [List.mem_singleton.mp hu]
      exact hpost hd
  aborts {r site e} h _ _ := by
    obtain ⟨c, hc⟩ := Run.abort_eq r (.siteFailed site e)
    rw [hc]
    exact h
  takes {r u rest} h hq := by
    rw [(g.job.received_receive u _).queue]
    exact fun u' hu' => h u' (hq ▸ List.mem_cons_of_mem u hu')

/-- **What a sampler of an inquiry draws** is what the inquiry asks for, and what its local
posteriors are. -/
theorem along_of_asks (hbase : g.base.Spreads U P) {q : Inquiry σ}
    (hm : ∀ x c, g.model x c = q.through c)
    (hq : q.Asks fun site => site.observed = none → U site.distribution)
    (hpost : ∀ {site t d}, g.posterior site t = .ok d → U d) (steps : Nat) (s : Shared) :
    g.Along P steps s where
  prior := by
    unfold priorProgram
    rw [hm]
    exact Inquiry.along_through hbase hq (g.laidOver_priorChain U s.next) _
  units {u r} hu := by
    have hposterior : U u.posterior := by
      cases hu with
      | intro before front =>
        have hreached := before.keeps (isInvariant_posterior hpost)
          fun _ => fun u hu => nomatch hu
        exact (isInvariant_posterior hpost).launched hreached u (front ▸ List.mem_cons_self)
    unfold WorkUnit.program
    show (g.model _ _).Along P _
    rw [hm]
    exact Inquiry.along_through hbase hq (WorkUnit.laidOver_chain hposterior g.base _) _

/-- What a sampler is made of stays as it is in a call. -/
theorem exists_conclude (g : Sampler σ) (s : Shared)
    (result : Except Error (List (String × Json))) :
    ∃ phase token, (g.conclude s result).1 = { g with phase := phase, token := token } := by
  unfold conclude
  split
  · exact ⟨_, _, rfl⟩
  · split <;> exact ⟨_, _, rfl⟩

theorem exists_sample (g : Sampler σ) (steps : Nat) (s : Shared) :
    ∃ trace counts phase executions token, (g.sample steps s).2.1
      = { g with trace := trace, counts := counts, phase := phase, executions := executions
                 token := token } := by
  have hended (g' : Sampler σ) (s : Shared) (result) (trace counts executions)
      (h : g' = { g with trace := trace, counts := counts, executions := executions }) :
      ∃ trace counts phase executions token, (g'.ended s result).2.1
        = { g with trace := trace, counts := counts, phase := phase, executions := executions
                   token := token } := by
    obtain ⟨phase, token, he⟩ := exists_conclude g' s result
    subst h
    exact ⟨_, _, _, _, _, he⟩
  unfold sample
  dsimp only
  split
  · exact ⟨_, _, _, _, _, rfl⟩
  · exact hended _ _ _ _ _ _ rfl
  · split
    · exact hended _ _ _ _ _ _ rfl
    · exact hended _ _ _ _ _ _ rfl

/-- A sampler of two sites, over a cache and without one. -/
def twofold (base : Chain) (token : Nat) : Sampler Unit :=
  .create (fun _ c => Inquiry.two.through c) [] .standard (fun _ _ => .ok default) base
    (.ofId token)

/-- A cache over a standard interpreter. -/
def cachedBase : Chain := .link 1 (.memo 0) (.link 0 (.standard false) .empty)

/-- The state in which a sampler of two sites is called first. -/
def twofoldStart : Shared := { Shared.start "/" with next := 6 }

/-- The cache has been warmed by another call of the sampler. -/
theorem sample_uncached_twofold :
    SameOutcome
      (((twofold cachedBase 3).sample 2 twofoldStart).2.1.sample 2
        ((twofold cachedBase 3).sample 2 twofoldStart).2.2)
      ((twofold (.link 2 (.standard false) .empty) 4).sample 2
        ((twofold cachedBase 3).sample 2 twofoldStart).2.2) := by
  let U : Distribution → Prop := (· = default)
  have hU : Distinguished U := by
    rintro d d' rfl rfl _ k
    rfl
  have hq : Inquiry.two.Asks fun site => site.observed = none → U site.distribution :=
    Inquiry.asks_two fun _ _ => rfl
  have hplain : cachedBase.IsPlain (· = 0) := ⟨rfl, trivial⟩
  have hfeeds : (twofold cachedBase 3).Along (Feeds U (· = 0)) 2 twofoldStart :=
    along_of_asks hplain.spreads_feeds (fun _ _ => rfl) hq (fun h => (Except.ok.inj h).symm) _ _
  have warmed := (Shared.Warmed.refl (s := twofoldStart)).sample hfeeds
  have hcalled : ((twofold cachedBase 3).sample 2 twofoldStart).2.1.token = .ofId 3
      ∧ (∀ j ∈ [3, 4], j ∉ ((twofold cachedBase 3).sample 2 twofoldStart).2.2.cancelled)
      ∧ 5 ≤ ((twofold cachedBase 3).sample 2 twofoldStart).2.2.next := by decide +kernel
  obtain ⟨trace, counts, phase, executions, token, hg⟩ :=
    exists_sample (twofold cachedBase 3) 2 twofoldStart
  obtain ⟨htoken, hlive, hnext⟩ := hcalled
  rw [hg] at htoken ⊢
  generalize ((twofold cachedBase 3).sample 2 twofoldStart).2.2 = s at warmed hlive hnext ⊢
  have hpair : Uncaches .none 0 1 0 2 3 4
      { twofold cachedBase 3 with
        trace := trace, counts := counts, phase := phase, executions := executions
        token := token }
      (twofold (.link 2 (.standard false) .empty) 4) s :=
    { cached := rfl, plain := rfl, model := rfl, observed := rfl, settings := rfl
      posterior := rfl, token := htoken, token' := rfl
      live := ⟨hlive 3 (by decide), hlive 4 (by decide)⟩
      made := fun j hj => by
        simp only [List.mem_cons, List.not_mem_nil, or_false] at hj
        omega
      blind := fun k => Inquiry.two.isBlind_through _ _ _
      instances := nofun, kinds := nofun, tokens := nofun }
  refine sample_uncached hU hpair rfl warmed ?_
  exact along_of_asks (hplain.spreads_drawsFrom _) (fun _ _ => rfl) hq
      (fun h => (Except.ok.inj h).symm) _ _

/-- A program that installs the cache of `cachedBase` in a scope before it draws. -/
def prying : Model Unit := fun _ c =>
  .scope c (.plain 1 (.memo 0)) (fun _ => .done) fun
    | .ok _ => .ask c (.drawn "a" default) fun _ => .done
    | .error e => .finish (.failure e) ()

/-- It stops at its first failing draw. -/
theorem stops_prying (x : Execution) (c : Context) : (prying x c).Stops := by
  intro s
  unfold prying
  by_cases ha : c.admits s (.plain 1 (.memo 0)) = true
  · rw [Program.transcript_scope_of_admits ha]
    exact Program.stops_ask (fun _ => Program.stops_done) _
  · rw [Program.transcript_scope_of_not_admits ha]
    exact fun a h => nomatch h

/-- **A program that installs the cache itself is refused**, because the chain that it is
handed has it already; over the standard interpreter alone it draws. -/
theorem reentrant_prying :
    (∀ x c, (prying x c).Stops)
      ∧ ({ twofold cachedBase 3 with model := prying }.sample 1 twofoldStart).1
        = .failure .reentrant
      ∧ ({ twofold (.link 2 (.standard false) .empty) 4 with model := prying }.sample 1
          twofoldStart).1
        = .value [("a", .null)] :=
  ⟨stops_prying, rfl, rfl⟩

end Sampler

end Resampler
