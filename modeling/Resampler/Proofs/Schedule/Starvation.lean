import Mathlib.Data.List.Nodup
import Mathlib.Data.List.Perm.Subperm
import Resampler.Proofs.Schedule.Budget

/-!
# Whether a site is starved

A single worker starts whatever can be started and then finishes the oldest site
in flight (`turn`). Every such turn completes a step, so the budget is spent after
as many turns as it has steps.

The choice of a schedule is fair among the sites that are feasible when it is made.
Nothing keeps room for a site that is not, and if two sites on which it depends do
not depend on each other, one of them may always be in flight: then it is never
feasible, however large the budget is (`starves`).

A site is sheltered (`Place.IsSheltered`) if the sites discovered later on which it
depends exclude the others on which it depends. Such a site is held up only by a
later one, only while that one completes its first step, and for no longer than it
takes to finish what was in flight before; then it is feasible, and its turn comes.
-/

namespace Resampler

namespace Schedule

variable {source : GraphSource} {g : DependencyGraph} {s s₀ : Schedule}
variable {x : String} {n : Nat}

/-! ## A single worker -/

/-- **One turn of a single worker**: whatever can be started is started, and then the
oldest site in flight is finished. -/
def turn (s : Schedule) : Schedule :=
  let s := s.launchAll.2
  match s.inFlight with
  | [] => s
  | site :: _ => s.finish site

/-- The schedule after so many turns. -/
def serve (s : Schedule) : Nat → Schedule
  | 0 => s
  | k + 1 => (s.serve k).turn

/-- What every start keeps, starting whatever can be started keeps. -/
theorem launchUpTo_keeps {P : Schedule → Prop}
    (hP : ∀ {s x}, P s → s.findWork = some x → P (s.begin x)) (h : P s) (k : Nat) :
    P (launchUpTo k s).2 := by
  induction k generalizing s with
  | zero => exact h
  | succ k ih =>
    unfold launchUpTo launch
    cases hw : s.findWork with
    | none => exact h
    | some x => exact ih (hP h hw)

/-- With all pending steps to start from, nothing is left to be started. -/
theorem findWork_launchUpTo {k : Nat} (h : s.pending ≤ k) :
    (launchUpTo k s).2.findWork = none := by
  induction k generalizing s with
  | zero => exact findWork_eq_none_iff.mpr (.inl (Nat.le_zero.mp h))
  | succ k ih =>
    unfold launchUpTo launch
    cases hw : s.findWork with
    | none => exact hw
    | some x =>
      refine ih ?_
      show s.pending - 1 ≤ k
      omega

theorem findWork_launchAll (s : Schedule) : s.launchAll.2.findWork = none :=
  findWork_launchUpTo (Nat.le_refl _)

theorem inFlight_finish_head {rest : List String} (h : s.inFlight = x :: rest) :
    (s.finish x).inFlight = rest := by
  rw [inFlight_finish, h, List.erase_cons_head]

/-- Finishing the oldest site in flight leaves a site alone that has not been started. -/
theorem idle_finish_head {rest : List String} {y : String} (h : s.inFlight = x :: rest)
    (idle : y ∉ s.inFlight ∧ s.count y = 0) :
    y ∉ (s.finish x).inFlight ∧ (s.finish x).count y = 0 := by
  have hin : x ∈ s.inFlight := h ▸ List.mem_cons_self
  have hne : x ≠ y := fun he => idle.1 (he ▸ hin)
  rw [inFlight_finish_head h, count_finish hin, if_neg hne, idle.2]
  exact ⟨fun hmem => idle.1 (h ▸ List.mem_cons_of_mem x hmem), rfl⟩

/-- **What a single worker keeps**: it starts what is found, and it finishes a site
only if none is found. -/
theorem serve_keeps {P : Schedule → Prop}
    (hbegin : ∀ {s x}, P s → s.findWork = some x → P (s.begin x))
    (hfinish : ∀ {s x rest}, P s → s.findWork = none → s.inFlight = x :: rest →
      P (s.finish x))
    (h : P s₀) (k : Nat) : P (s₀.serve k) := by
  induction k with
  | zero => exact h
  | succ k ih =>
    have hlaunched : P (s₀.serve k).launchAll.2 := launchUpTo_keeps hbegin ih _
    show P (s₀.serve k).turn
    unfold turn
    dsimp only
    split
    · exact hlaunched
    · next hflight => exact hfinish hlaunched (findWork_launchAll _) hflight

/-! ## Every turn completes a step -/

/-- **A schedule of a given budget under way**, on some course on which nothing is
wasted. -/
def IsUnderWay (g : DependencyGraph) (n : Nat) (s : Schedule) : Prop :=
  ∃ past, s.Thrifty g n past

theorem IsUnderWay.sum (h : s.IsUnderWay g n) :
    s.pending + s.inFlight.length + s.total = n := by
  obtain ⟨past, hthrifty⟩ := h
  exact hthrifty.conserves.2

theorem IsUnderWay.begin (h : s.IsUnderWay source.graph n) (hw : s.findWork = some x) :
    (s.begin x).IsUnderWay source.graph n := by
  obtain ⟨past, hthrifty⟩ := h
  have hnext := hthrifty.next (.launch hw []) rfl rfl
  rw [hthrifty.balances.apart.start_addAll hw []] at hnext
  exact ⟨_, hnext⟩

theorem IsUnderWay.finish (h : s.IsUnderWay source.graph n) (hx : x ∈ s.inFlight) :
    (s.finish x).IsUnderWay source.graph n := by
  obtain ⟨past, hthrifty⟩ := h
  exact ⟨_, hthrifty.next (.finish hx) rfl rfl⟩

theorem isUnderWay_create {latent : List String} (hlatent : latent ≠ [])
    (g : DependencyGraph) (n : Nat) : (create latent g n).IsUnderWay g n := by
  obtain ⟨y, hy⟩ := List.exists_mem_of_ne_nil latent hlatent
  exact ⟨[], balances_create latent g n, nofun, y, mem_latent_create_of_mem hy⟩

theorem IsUnderWay.serve (h : s₀.IsUnderWay source.graph n) (k : Nat) :
    (s₀.serve k).IsUnderWay source.graph n := by
  refine serve_keeps IsUnderWay.begin (fun h _ hflight => ?_) h k
  exact h.finish (hflight ▸ List.mem_cons_self)

/-- **A turn completes a step**, if there is one to complete. -/
theorem IsUnderWay.total_turn (h : s.IsUnderWay source.graph n) :
    min (s.total + 1) n ≤ s.turn.total := by
  have hlaunched : s.launchAll.2.IsUnderWay source.graph n ∧ s.launchAll.2.total = s.total :=
    launchUpTo_keeps (P := fun s' => s'.IsUnderWay source.graph n ∧ s'.total = s.total)
      (fun h hw => ⟨h.1.begin hw, h.2⟩) ⟨h, rfl⟩ _
  unfold turn
  dsimp only
  split
  · next hflight =>
    -- Nothing is in flight and nothing is found: the budget has been spent.
    obtain ⟨past, hthrifty⟩ := hlaunched.1
    obtain ⟨y, hy⟩ := hthrifty.known
    have hpending := (findWork_eq_none s.findWork_launchAll hflight).resolve_right
      (List.ne_nil_of_mem hy)
    have hsum := hlaunched.1.sum
    rw [hflight, hpending, List.length_nil] at hsum
    omega
  · next site rest hflight =>
    rw [total_finish (hflight ▸ List.mem_cons_self), hlaunched.2]
    exact Nat.min_le_left _ _

/-- **After as many turns as the budget has steps, the schedule is done.** -/
theorem IsUnderWay.isDone_serve (h : s₀.IsUnderWay source.graph n) :
    (s₀.serve n).isDone = true := by
  have htotal : ∀ k, min k n ≤ (s₀.serve k).total := by
    intro k
    induction k with
    | zero => omega
    | succ k ih =>
      have hturn : min ((s₀.serve k).total + 1) n ≤ (s₀.serve (k + 1)).total :=
        (h.serve k).total_turn
      omega
  have hall := htotal n
  have hsum := (h.serve n).sum
  rw [isDone, Bool.and_eq_true, decide_eq_true_iff, List.isEmpty_iff_length_eq_zero]
  omega

/-! ## A place in the order of discovery -/

/-- **A site among all latent ones**, in the order of their discovery. -/
structure Place where
  /-- The sites discovered before it. -/
  earlier : List String
  /-- The site. -/
  site : String
  /-- The sites discovered after it. -/
  later : List String

namespace Place

variable (p : Place)

/-- All the sites. -/
def sites : List String := p.earlier ++ p.site :: p.later

/-- A list of distinct sites is split at one of them in one way only. -/
theorem split_unique {before after : List String} (hnodup : p.sites.Nodup)
    (h : p.sites = before ++ p.site :: after) : p.earlier = before ∧ p.later = after := by
  unfold sites at hnodup h
  have hmem : p.site ∉ p.earlier ∧ p.site ∉ p.later := by grind
  obtain ⟨hbefore, -, hafter⟩ := (List.append_cons_inj_of_notMem hmem.1 hmem.2).mp h
  exact ⟨hbefore, hafter⟩

/-- How many later sites it depends on. Each of them is preferred to it at first. -/
def rivals (g : DependencyGraph) : Nat := p.later.countP (g.depends p.site)

/-- How many sites it does not depend on, itself among them. Only these are in flight
where it is feasible. -/
def width (g : DependencyGraph) : Nat := p.sites.countP fun y => !g.depends p.site y

/-- **A sheltered site**: each later site that it depends on depends on all the others
that it depends on. -/
def IsSheltered (g : DependencyGraph) : Prop :=
  ∀ a ∈ p.later, g.depends p.site a = true →
    ∀ b ∈ p.sites, g.depends p.site b = true → b ≠ a → g.depends a b = true

instance (g : DependencyGraph) : Decidable (p.IsSheltered g) :=
  inferInstanceAs (Decidable (∀ a ∈ p.later, g.depends p.site a = true →
    ∀ b ∈ p.sites, g.depends p.site b = true → b ≠ a → g.depends a b = true))

/-- Whether a site on which it depends has not completed a step. -/
def isFresh (g : DependencyGraph) (s : Schedule) (y : String) : Bool :=
  g.depends p.site y && decide (s.count y = 0)

/-- How many of its rivals have not completed a step. -/
def fresh (g : DependencyGraph) (s : Schedule) : Nat := p.later.countP (p.isFresh g s)

/-- **How a site fares**, until it is started. All bounds are on the steps that have
been completed meanwhile. -/
inductive Fares (g : DependencyGraph) (s : Schedule) : Prop where
  /-- It has been started. -/
  | served (started : p.site ∈ s.inFlight ∨ 0 < s.count p.site)
  /-- It waits for a rival to complete a first step. -/
  | waiting (idle : p.site ∉ s.inFlight ∧ s.count p.site = 0)
    {ahead behind : List String} {rival : String}
    (flying : s.inFlight = ahead ++ rival :: behind)
    (later : rival ∈ p.later) (depends : g.depends p.site rival = true)
    (unused : s.count rival = 0)
    (bound : s.total + ahead.length + p.fresh g s * p.width g + 1
      ≤ (p.rivals g + 1) * p.width g)
  /-- It depends on none in flight. -/
  | free (idle : p.site ∉ s.inFlight ∧ s.count p.site = 0)
    (alone : ∀ y ∈ s.inFlight, g.depends p.site y = false)
    (bound : s.total + p.fresh g s * p.width g ≤ p.rivals g * p.width g)

end Place

/-- **A schedule under way in which a place is what it says.** -/
structure Hosts (g : DependencyGraph) (n : Nat) (p : Place) (s : Schedule) : Prop where
  underWay : s.IsUnderWay g n
  latent : s.latent = p.sites

variable {p : Place}

theorem Hosts.graph (h : s.Hosts g n p) : s.graph = g := by
  obtain ⟨past, hthrifty⟩ := h.underWay
  exact hthrifty.balances.apart.graph

theorem Hosts.apart (h : s.Hosts g n p) : s.KeepsApart g := by
  obtain ⟨past, hthrifty⟩ := h.underWay
  exact hthrifty.balances.apart

theorem Hosts.tallies (h : s.Hosts g n p) : s.Tallies := by
  obtain ⟨past, hthrifty⟩ := h.underWay
  exact hthrifty.balances.tallies

theorem Hosts.begin (h : s.Hosts source.graph n p) (hw : s.findWork = some x) :
    (s.begin x).Hosts source.graph n p :=
  ⟨h.underWay.begin hw, h.latent⟩

theorem Hosts.finish (h : s.Hosts source.graph n p) (hx : x ∈ s.inFlight) :
    (s.finish x).Hosts source.graph n p :=
  ⟨h.underWay.finish hx, (s.latent_finish x).trans h.latent⟩

/-- A site is feasible where it is not in flight and depends on none in flight. -/
theorem Hosts.isFeasible (h : s.Hosts g n p) (hnone : p.site ∉ s.inFlight)
    (halone : ∀ y ∈ s.inFlight, g.depends p.site y = false) :
    s.isFeasible p.site = true := by
  rw [isFeasible_iff, h.graph]
  exact ⟨hnone, halone⟩

/-- **Where it is feasible, less sites are in flight than it does not depend on**, for it
is one of these itself. -/
theorem Hosts.length_inFlight (h : s.Hosts g n p) (hnone : p.site ∉ s.inFlight)
    (halone : ∀ y ∈ s.inFlight, g.depends p.site y = false) :
    s.inFlight.length + 1 ≤ p.width g := by
  have hnodup : (p.site :: s.inFlight).Nodup := List.nodup_cons.mpr ⟨hnone, h.apart.once⟩
  have hsub : p.site :: s.inFlight ⊆ p.sites.filter fun y => !g.depends p.site y := by
    intro y hy
    rw [List.mem_filter, Bool.not_eq_true']
    rcases List.mem_cons.mp hy with rfl | hy
    · exact ⟨List.mem_append_right _ List.mem_cons_self, g.depends_self _⟩
    · exact ⟨h.latent ▸ h.tallies.started y hy, halone y hy⟩
  rw [Place.width, List.countP_eq_length_filter]
  exact (List.subperm_of_subset hnodup hsub).length_le

theorem Hosts.nodup (h : s.Hosts g n p) : p.sites.Nodup := h.latent ▸ h.tallies.nodup

/-- **Where it is feasible and has no completed step, only a later site with none is
preferred to it.** -/
theorem Hosts.mem_later (h : s.Hosts g n p) (hf : s.isFeasible p.site = true)
    (hcount : s.count p.site = 0) (hw : s.findWork = some x) (hx : x ≠ p.site) :
    x ∈ p.later ∧ s.count x = 0 := by
  obtain ⟨-, -, before, after, hlatent, hbefore, hafter⟩ := isChoice_of_findWork hw
  have hsplit : p.sites = before ++ x :: after := h.latent.symm.trans hlatent
  have hmem : p.site ∈ before := by
    have hin : p.site ∈ before ++ x :: after :=
      hsplit ▸ List.mem_append_right _ List.mem_cons_self
    rcases List.mem_append.mp hin with hin | hin
    · exact hin
    · rcases List.mem_cons.mp hin with he | hin
      · exact absurd he.symm hx
      · have hless := hafter p.site hin hf
        omega
  refine ⟨?_, Nat.le_zero.mp (hcount ▸ hbefore p.site hmem hf)⟩
  obtain ⟨front, back, rfl⟩ := List.append_of_mem hmem
  rw [List.append_assoc, List.cons_append] at hsplit
  rw [(p.split_unique h.nodup hsplit).2]
  exact List.mem_append_right _ List.mem_cons_self

/-! ## A sheltered site has its turn -/

theorem isFresh_iff {y : String} :
    p.isFresh g s y = true ↔ g.depends p.site y = true ∧ s.count y = 0 := by
  rw [Place.isFresh, Bool.and_eq_true, decide_eq_true_iff]

/-- Starting a site changes no count. -/
theorem fresh_begin (s : Schedule) (x : String) : p.fresh g (s.begin x) = p.fresh g s := rfl

theorem isFresh_of_finish {y : String} (hx : x ∈ s.inFlight)
    (hy : p.isFresh g (s.finish x) y = true) : p.isFresh g s y = true := by
  rw [isFresh_iff, count_finish hx] at hy
  exact isFresh_iff.mpr ⟨hy.1, Nat.eq_zero_of_add_eq_zero_right hy.2⟩

/-- Completing a step leaves no more rivals without one. -/
theorem fresh_finish (hx : x ∈ s.inFlight) : p.fresh g (s.finish x) ≤ p.fresh g s :=
  List.countP_mono_left fun _ _ hy => isFresh_of_finish hx hy

/-- **The first step of a rival leaves one rival less without one.** -/
theorem fresh_finish_rival (hx : x ∈ s.inFlight) (hlater : x ∈ p.later)
    (hdep : g.depends p.site x = true) (hcount : s.count x = 0) :
    p.fresh g (s.finish x) + 1 ≤ p.fresh g s := by
  have hperm := List.perm_cons_erase hlater
  have hafter : ¬ p.isFresh g (s.finish x) x = true := by
    rw [isFresh_iff, count_finish hx, if_pos rfl]
    exact fun h => Nat.succ_ne_zero _ h.2
  unfold Place.fresh
  rw [hperm.countP_eq, hperm.countP_eq, List.countP_cons_of_neg hafter,
    List.countP_cons_of_pos (isFresh_iff.mpr ⟨hdep, hcount⟩)]
  exact Nat.succ_le_succ (List.countP_mono_left fun _ _ hy => isFresh_of_finish hx hy)

theorem fares_create (latent : List String) (g : DependencyGraph) (n : Nat) (p : Place) :
    p.Fares g (create latent g n) := by
  have hle : p.fresh g (create latent g n) ≤ p.rivals g :=
    List.countP_mono_left fun _ _ hy => (isFresh_iff.mp hy).1
  refine .free ⟨List.not_mem_nil, count_create ..⟩ (fun _ hy => nomatch hy) ?_
  rw [total_create, Nat.zero_add]
  exact Nat.mul_le_mul_right _ hle

/-- **Starting a site.** A feasible place is started itself, or a rival is, for the first
time, or a site on which it does not depend. -/
theorem Place.Fares.begin (h : p.Fares g s) (hosts : s.Hosts g n p)
    (hw : s.findWork = some x) : p.Fares g (s.begin x) := by
  have hf := (findWork_eq_some hw).2
  have hflight : (s.begin x).inFlight = s.inFlight ++ [x] :=
    inFlight_begin (isFeasible_iff.mp hf).1
  by_cases hx : x = p.site
  · exact .served (.inl (by rw [hflight, hx]; simp))
  cases h with
  | served started =>
    refine .served (started.imp_left fun hin => ?_)
    rw [hflight]
    exact List.mem_append_left _ hin
  | @waiting idle ahead behind rival flying later depends unused bound =>
    have hnext : (s.begin x).inFlight = ahead ++ rival :: (behind ++ [x]) := by
      rw [hflight, flying, List.append_assoc, List.cons_append]
    refine .waiting ⟨?_, idle.2⟩ hnext later depends unused bound
    rw [hflight]
    grind
  | free idle alone bound =>
    have hnone : p.site ∉ (s.begin x).inFlight := by
      rw [hflight]
      grind
    cases hdep : g.depends p.site x with
    | true =>
      obtain ⟨hlater, hcount⟩ := hosts.mem_later (hosts.isFeasible idle.1 alone) idle.2 hw hx
      refine .waiting ⟨hnone, idle.2⟩ hflight hlater hdep hcount ?_
      have hroom := hosts.length_inFlight idle.1 alone
      rw [fresh_begin, Nat.succ_mul]
      show s.total + _ + _ + 1 ≤ _
      omega
    | false =>
      refine .free ⟨hnone, idle.2⟩ (fun y hy => ?_) bound
      rw [hflight] at hy
      rcases List.mem_append.mp hy with hy | hy
      · exact alone y hy
      · rwa [List.mem_singleton.mp hy]

/-- **A rival in flight excludes whatever else a sheltered site depends on.** -/
theorem Hosts.alone_of_rival (h : s.Hosts g n p) (hshelter : p.IsSheltered g)
    (hx : x ∈ s.inFlight) (hlater : x ∈ p.later) (hdep : g.depends p.site x = true)
    {y : String} (hy : y ∈ s.inFlight) (hne : y ≠ x) : g.depends p.site y = false := by
  refine Bool.eq_false_iff.mpr fun hyes => ?_
  have hexcludes := hshelter x hlater hdep y (h.latent ▸ h.tallies.started y hy) hyes hne
  exact Bool.false_ne_true ((h.apart.apart x hx y hy).symm.trans hexcludes)

/-- **Finishing the oldest site in flight**, when none is found. Either there is one less
before the rival that a place waits for, or that rival has completed its first step, and
as it excludes the others nothing holds up the place any more. -/
theorem Place.Fares.finish {rest : List String} (h : p.Fares g s) (hosts : s.Hosts g n p)
    (hshelter : p.IsSheltered g) (hn : (p.rivals g + 1) * p.width g ≤ n)
    (hw : s.findWork = none) (hx : s.inFlight = x :: rest) : p.Fares g (s.finish x) := by
  have hin : x ∈ s.inFlight := hx ▸ List.mem_cons_self
  have hrest := inFlight_finish_head hx
  have htotal := total_finish hin
  cases h with
  | served started =>
    refine .served ?_
    rw [hrest, count_finish hin]
    rcases started with hstarted | hcount
    · rcases List.mem_cons.mp (hx ▸ hstarted) with he | hstarted
      · exact .inr (by rw [if_pos he.symm]; omega)
      · exact .inl hstarted
    · exact .inr (by omega)
  | @waiting idle ahead behind rival flying later depends unused bound =>
    have hnone := idle_finish_head hx idle
    cases ahead with
    | nil =>
      obtain ⟨rfl, rfl⟩ : x = rival ∧ rest = behind :=
        List.cons_eq_cons.mp (hx.symm.trans flying)
      have hfresh := fresh_finish_rival hin later depends unused
      refine .free hnone (fun y hy => ?_) ?_
      · rw [hrest] at hy
        refine hosts.alone_of_rival hshelter hin later depends
          (hx ▸ List.mem_cons_of_mem x hy) fun he => ?_
        exact (List.nodup_cons.mp (hx ▸ hosts.apart.once)).1 (he ▸ hy)
      · have hmul := Nat.mul_le_mul_right (p.width g) hfresh
        rw [Nat.succ_mul] at hmul bound
        rw [List.length_nil] at bound
        omega
    | cons z ahead =>
      obtain ⟨rfl, rfl⟩ : x = z ∧ rest = ahead ++ rival :: behind :=
        List.cons_eq_cons.mp (hx.symm.trans flying)
      have hne' : x ≠ rival := by
        have hnodup := hx ▸ hosts.apart.once
        grind
      have hmul := Nat.mul_le_mul_right (p.width g) (fresh_finish (p := p) (g := g) hin)
      refine .waiting hnone hrest later depends ?_ ?_
      · rw [count_finish hin, if_neg hne', unused]
      · rw [List.length_cons] at bound
        omega
  | free idle alone bound =>
    -- The place is feasible, and the budget has not been spent.
    have hroom := hosts.length_inFlight idle.1 alone
    have hsum := hosts.underWay.sum
    have hfeasible := hosts.isFeasible idle.1 alone
    rcases findWork_eq_none_iff.mp hw with hpending | hall
    · rw [Nat.succ_mul] at hn
      omega
    · exact absurd hfeasible (hall p.site
        (hosts.latent ▸ List.mem_append_right _ List.mem_cons_self))

theorem hosts_create {latent : List String} {g : DependencyGraph}
    (hp : (create latent g n).latent = p.sites) : (create latent g n).Hosts g n p := by
  have hmem : p.site ∈ (create latent g n).latent :=
    hp ▸ List.mem_append_right _ List.mem_cons_self
  exact ⟨isUnderWay_create (List.ne_nil_of_mem (mem_latent_create hmem)) g n, hp⟩

/-- **A sheltered site is not starved**, if the budget is large enough. -/
theorem count_pos_of_isSheltered {latent : List String}
    (hp : (create latent source.graph n).latent = p.sites)
    (hshelter : p.IsSheltered source.graph)
    (hn : (p.rivals source.graph + 1) * p.width source.graph ≤ n) {k : Nat}
    (hdone : ((create latent source.graph n).serve k).isDone = true) :
    0 < ((create latent source.graph n).serve k).count p.site := by
  have hfirst : (create latent source.graph n).Hosts source.graph n p
      ∧ p.Fares source.graph (create latent source.graph n) :=
    ⟨hosts_create hp, fares_create latent _ n p⟩
  obtain ⟨hosts, hfares⟩ := serve_keeps
    (P := fun s => s.Hosts source.graph n p ∧ p.Fares source.graph s)
    (fun h hw => ⟨h.1.begin hw, h.2.begin h.1 hw⟩)
    (fun h hw hflight => ⟨h.1.finish (hflight ▸ List.mem_cons_self),
      h.2.finish h.1 hshelter hn hw hflight⟩) hfirst k
  rw [isDone, Bool.and_eq_true, decide_eq_true_iff, List.isEmpty_iff] at hdone
  obtain ⟨hpending, hflight⟩ := hdone
  cases hfares with
  | served started => exact started.resolve_left (hflight ▸ List.not_mem_nil)
  | waiting _ flying => exact absurd (flying.symm.trans hflight) (by simp)
  | free idle alone bound =>
    have hroom := hosts.length_inFlight idle.1 alone
    have hsum := hosts.underWay.sum
    rw [Nat.succ_mul] at hn
    omega

/-! ## Where all sites are alike -/

namespace Place

/-- Where every site depends on every other, each is sheltered, and alone in its width. -/
theorem alike_complete (hnodup : p.sites.Nodup) :
    p.IsSheltered .complete
      ∧ (p.rivals .complete + 1) * p.width .complete ≤ p.sites.length := by
  have hwidth : p.width .complete = 1 := by
    have hsame : (fun y => !DependencyGraph.complete.depends p.site y)
        = fun y => y == p.site := by
      funext y
      rw [DependencyGraph.depends_complete]
      grind
    rw [width, hsame]
    exact List.count_eq_one_of_mem hnodup (List.mem_append_right _ List.mem_cons_self)
  have hrivals : p.rivals .complete ≤ p.later.length := List.countP_le_length
  have hlength : p.sites.length = p.earlier.length + (p.later.length + 1) :=
    List.length_append
  refine ⟨fun a _ _ b _ _ hba => ?_, ?_⟩
  · rw [DependencyGraph.depends_complete, decide_eq_true hba.symm]
  · rw [hwidth]
    omega

/-- Where no site depends on another, each is sheltered, and has no rivals. -/
theorem alike_independent :
    p.IsSheltered .independent
      ∧ (p.rivals .independent + 1) * p.width .independent ≤ p.sites.length := by
  have hnone := GraphSource.depends_independent
  have hrivals : p.rivals .independent = 0 :=
    List.countP_eq_zero.mpr fun y _ => by rw [hnone]; exact Bool.false_ne_true
  refine ⟨fun a _ hdep => absurd ((hnone _ _).symm.trans hdep) Bool.false_ne_true, ?_⟩
  rw [hrivals, Nat.zero_add, Nat.one_mul]
  exact List.countP_le_length

end Place

/-- **A schedule served by a single worker**: it comes to its end, and no site is starved
that is sheltered, or where all are alike, if the budget is large enough. -/
structure IsServed (g : DependencyGraph) (n : Nat) (s₀ : Schedule) : Prop where
  /-- It is done after as many turns as there are steps. -/
  done : (s₀.serve n).isDone = true
  /-- When it is done, a sheltered site has completed a step, if there are steps for all
  that can be in flight beside it, and again for each of its rivals. -/
  sheltered : ∀ k, (s₀.serve k).isDone = true → ∀ p : Place, s₀.latent = p.sites →
    p.IsSheltered g → (p.rivals g + 1) * p.width g ≤ n → 0 < (s₀.serve k).count p.site
  /-- When it is done, each site has completed a step, if all or none depend on each
  other, and there is a step for each. -/
  alike : ∀ k, (s₀.serve k).isDone = true → g = .complete ∨ g = .independent →
    s₀.latent.length ≤ n → ∀ y ∈ s₀.latent, 0 < (s₀.serve k).count y

/-- **A single worker starves no sheltered site.** -/
theorem isServed_create (source : GraphSource) {latent : List String}
    (hlatent : latent ≠ []) (n : Nat) :
    (create latent source.graph n).IsServed source.graph n where
  done := (isUnderWay_create hlatent source.graph n).isDone_serve
  sheltered _ hdone _ hp hshelter hn := count_pos_of_isSheltered hp hshelter hn hdone
  alike k hdone hg hn y hy := by
    obtain ⟨earlier, later, hp⟩ := List.append_of_mem hy
    let p : Place := ⟨earlier, y, later⟩
    obtain ⟨hshelter, hwidth⟩ : p.IsSheltered source.graph
        ∧ (p.rivals source.graph + 1) * p.width source.graph ≤ p.sites.length := by
      rcases hg with hg | hg
      · rw [hg]
        exact p.alike_complete (hosts_create (p := p) hp).nodup
      · rw [hg]
        exact p.alike_independent
    rw [hp] at hn
    exact count_pos_of_isSheltered (p := p) hp hshelter (Nat.le_trans hwidth hn) hdone

/-- In a chain of three sites the first depends on one later site only. -/
theorem isServed_create_chain :
    ["a", "b", "c"] ≠ []
      ∧ 0 < ((create ["a", "b", "c"] (GraphSource.edges [("a", "b"), ("b", "c")]).graph
        4).serve 4).count "a" := by
  have h := isServed_create (.edges [("a", "b"), ("b", "c")])
    (List.cons_ne_nil "a" ["b", "c"]) 4
  refine ⟨List.cons_ne_nil _ _, h.sheltered 4 h.done ⟨[], "a", ["b", "c"]⟩ ?_ ?_ ?_⟩
  · decide
  · decide
  · decide

/-! ## A besieged site is starved -/

/-- **A besieged site**: two sites depend on it and on no other, one of them discovered
later. -/
structure Place.IsBesieged (p : Place) (g : DependencyGraph) (a b : String) : Prop where
  later : a ∈ p.later
  known : b ∈ p.sites
  distinct : a ≠ b
  held : g.depends p.site a = true ∧ g.depends p.site b = true
  only : ∀ y, (g.depends a y = true → y = p.site) ∧ (g.depends b y = true → y = p.site)

/-- **How a besieged site is held up**: one of the two is in flight, or the later one is
preferred. -/
structure Place.IsStarving (p : Place) (a b : String) (s : Schedule) : Prop where
  idle : p.site ∉ s.inFlight ∧ s.count p.site = 0
  busy : s.pending = 0 ∨ a ∈ s.inFlight ∨ b ∈ s.inFlight ∨ s.count a = 0

variable {a b : String}

/-- A site that depends on one site only, which is not in flight, is feasible unless it is
in flight itself. -/
theorem Hosts.isFeasible_of_only (h : s.Hosts g n p) (hnone : p.site ∉ s.inFlight)
    (honly : ∀ y, g.depends a y = true → y = p.site) (ha : a ∉ s.inFlight) :
    s.isFeasible a = true := by
  rw [isFeasible_iff, h.graph]
  exact ⟨ha, fun y hy => Bool.eq_false_iff.mpr fun hdep => hnone (honly y hdep ▸ hy)⟩

theorem Place.IsStarving.begin (h : p.IsStarving a b s) (hosts : s.Hosts g n p)
    (hsiege : p.IsBesieged g a b) (hw : s.findWork = some x) :
    p.IsStarving a b (s.begin x) := by
  obtain ⟨hpending, hf, before, after, hlatent, -, hafter⟩ := isChoice_of_findWork hw
  have hx : x ≠ p.site := by
    rintro rfl
    have hfree := (isFeasible_iff.mp hf).2
    rw [hosts.graph] at hfree
    have ha : a ∉ s.inFlight := fun hin =>
      Bool.false_ne_true ((hfree a hin).symm.trans hsiege.held.1)
    have hb : b ∉ s.inFlight := fun hin =>
      Bool.false_ne_true ((hfree b hin).symm.trans hsiege.held.2)
    have hcount : s.count a = 0 := by
      rcases h.busy with hzero | hin | hin | hcount
      · exact absurd hzero hpending
      · exact absurd hin ha
      · exact absurd hin hb
      · exact hcount
    -- The later of the two would have been preferred.
    have hlater := (p.split_unique hosts.nodup (hosts.latent.symm.trans hlatent)).2
    have hless := hafter a (hlater ▸ hsiege.later)
      (hosts.isFeasible_of_only h.idle.1 (fun y => (hsiege.only y).1) ha)
    omega
  have hflight : (s.begin x).inFlight = s.inFlight ++ [x] :=
    inFlight_begin (isFeasible_iff.mp hf).1
  refine ⟨⟨?_, h.idle.2⟩, ?_⟩
  · rw [hflight]
    grind [h.idle]
  · rw [hflight]
    rcases h.busy with hzero | hin | hin | hcount
    · exact absurd hzero hpending
    · exact .inr (.inl (List.mem_append_left _ hin))
    · exact .inr (.inr (.inl (List.mem_append_left _ hin)))
    · exact .inr (.inr (.inr hcount))

theorem Place.IsStarving.finish {rest : List String} (h : p.IsStarving a b s)
    (hosts : s.Hosts g n p) (hsiege : p.IsBesieged g a b) (hw : s.findWork = none)
    (hx : s.inFlight = x :: rest) : p.IsStarving a b (s.finish x) := by
  refine ⟨idle_finish_head hx h.idle, ?_⟩
  rw [pending_finish, inFlight_finish_head hx]
  rcases findWork_eq_none_iff.mp hw with hpending | hall
  · exact .inl hpending
  -- Both are in flight, and only one of them can be the oldest.
  have ha : a ∈ s.inFlight := by
    by_contra hnot
    refine hall a (hosts.latent ▸ ?_)
      (hosts.isFeasible_of_only h.idle.1 (fun y => (hsiege.only y).1) hnot)
    exact List.mem_append_right _ (List.mem_cons_of_mem _ hsiege.later)
  have hb : b ∈ s.inFlight := by
    by_contra hnot
    exact hall b (hosts.latent ▸ hsiege.known)
      (hosts.isFeasible_of_only h.idle.1 (fun y => (hsiege.only y).2) hnot)
  rw [hx] at ha hb
  grind [hsiege.distinct]

/-- **A besieged site never completes a step**, whatever the budget. -/
theorem starves {latent : List String} (hp : (create latent source.graph n).latent = p.sites)
    (hsiege : p.IsBesieged source.graph a b) (k : Nat) :
    ((create latent source.graph n).serve k).count p.site = 0 := by
  have hfirst : (create latent source.graph n).Hosts source.graph n p
      ∧ p.IsStarving a b (create latent source.graph n) :=
    ⟨hosts_create hp, ⟨List.not_mem_nil, count_create ..⟩,
      .inr (.inr (.inr (count_create ..)))⟩
  obtain ⟨-, hstarving⟩ := serve_keeps
    (P := fun s => s.Hosts source.graph n p ∧ p.IsStarving a b s)
    (fun h hw => ⟨h.1.begin hw, h.2.begin h.1 hsiege hw⟩)
    (fun h hw hflight => ⟨h.1.finish (hflight ▸ List.mem_cons_self),
      h.2.finish h.1 hsiege hw hflight⟩) hfirst k
  exact hstarving.idle.2

/-- **The hub of a star is starved** by its two leaves, with a step for each site and with
any budget. And a site that would have its turn misses it if the budget is spent on others
while it waits. -/
theorem hub_starves :
    (((create ["c", "a", "b"] (GraphSource.edges [("c", "a"), ("c", "b")]).graph 3).serve
        3).isDone = true
      ∧ ((create ["c", "a", "b"] (GraphSource.edges [("c", "a"), ("c", "b")]).graph 3).serve
        3).count "c" = 0)
      ∧ (∀ n k, ((create ["c", "a", "b"]
        (GraphSource.edges [("c", "a"), ("c", "b")]).graph n).serve k).count "c" = 0)
      ∧ ((create ["c", "d", "a"] (GraphSource.edges [("c", "d")]).graph 3).serve
        3).isDone = true
      ∧ ((create ["c", "d", "a"] (GraphSource.edges [("c", "d")]).graph 3).serve
        3).count "c" = 0 := by
  have hsiege : Place.IsBesieged ⟨[], "c", ["a", "b"]⟩
      (GraphSource.edges [("c", "a"), ("c", "b")]).graph "a" "b" := by
    refine ⟨by decide, by decide, by decide, by decide, fun y => ?_⟩
    rw [GraphSource.depends_graph, GraphSource.depends_graph]
    simp [GraphSource.Gives]
  refine ⟨by decide +kernel, fun n k => ?_, by decide +kernel, by decide +kernel⟩
  exact starves (p := ⟨[], "c", ["a", "b"]⟩) rfl hsiege k

end Schedule

end Resampler
