import Mathlib.Algebra.Order.BigOperators.Group.List
import Mathlib.Algebra.Order.Group.Nat
import Resampler.Proofs.Schedule.Exclusion
import Resampler.Proofs.Schedule.Tally

/-!
# How a budget is spent

Whoever drives a schedule starts the sites that it finds and finishes those in
flight, in whatever order they come back, and adds sites as they turn up. Every
start takes a step of the budget, and every step that has been taken is in
flight, or has been completed, or was abandoned. So the budget is always
accounted for, as long as nobody drains it (`IsAccounted`).

A process goes on as long as it can, for if nothing is in flight every latent
site is feasible. Therefore it ends only with the budget, and it ends after two
turns for each step, one in which the site is launched and one in which it is
finished, whatever the strategy (`Strategy.Spends`).
-/

namespace Resampler

namespace Schedule

/-! ## What can happen to a schedule -/

/-- **What happens to a schedule** while it is driven. -/
inductive Event where
  /-- A site that was found has been started. -/
  | launched (site : String)
  /-- A site in flight has completed a step. -/
  | finished (site : String)
  /-- A site in flight has been dropped. -/
  | abandoned (site : String)
  /-- A site has been added. -/
  | added (site : String)
  /-- No step is to be started any more. -/
  | drained
  /-- No step is to be started any more, and what was in flight is forgotten. -/
  | cancelled
deriving DecidableEq

namespace Event

/-- Whether a site has been started. -/
def isLaunch : Event → Bool
  | .launched _ => true
  | _ => false

/-- Whether a step has been completed. -/
def isFinish : Event → Bool
  | .finished _ => true
  | _ => false

/-- Whether a site has been dropped. -/
def isAbandon : Event → Bool
  | .abandoned _ => true
  | _ => false

/-- Whether the budget has been given up. -/
def isDrain : Event → Bool
  | .drained => true
  | .cancelled => true
  | _ => false

end Event

/-- Add some sites. -/
def addAll (s : Schedule) (sites : List String) : Schedule := sites.foldl addSite s

/-- **What an event does to a schedule.** Between the moment in which a site is
found and its start, sites may be added. -/
inductive Moves : Schedule → Event → Schedule → Prop where
  | launch {s : Schedule} {site : String} (found : s.findWork = some site)
    (late : List String) : Moves s (.launched site) ((s.addAll late).start site).2
  | finish {s : Schedule} {site : String} (flying : site ∈ s.inFlight) :
    Moves s (.finished site) (s.finish site)
  | abandon {s : Schedule} {site : String} (flying : site ∈ s.inFlight) :
    Moves s (.abandoned site) (s.abandon site)
  | add (s : Schedule) (site : String) : Moves s (.added site) (s.addSite site)
  | drain (s : Schedule) : Moves s .drained s.drain
  | cancel (s : Schedule) : Moves s .cancelled s.cancelAll.2

/-- **The courses that a schedule can take**, with the events so far, the first
first. -/
inductive Course (s₀ : Schedule) : List Event → Schedule → Prop where
  | start : Course s₀ [] s₀
  | next {past : List Event} {s s' : Schedule} {e : Event} (before : Course s₀ past s)
    (move : Moves s e s') : Course s₀ (past ++ [e]) s'

/-! ## Adding sites -/

variable {source : GraphSource} {s s' s₀ : Schedule} {site : String}

/-- What adding a site keeps, adding some of them keeps. -/
theorem addAll_keeps {P : Schedule → Prop} (hP : ∀ {s}, P s → ∀ y, P (s.addSite y))
    (h : P s) (sites : List String) : P (s.addAll sites) := by
  induction sites generalizing s with
  | nil => exact h
  | cons y rest ih => exact ih (hP h y)

theorem KeepsApart.addSite {g : DependencyGraph} (h : s.KeepsApart g) (y : String) :
    (s.addSite y).KeepsApart g :=
  h.sublist (s.graph_addSite y) (s.inFlight_addSite y ▸ List.Sublist.refl _)

theorem inFlight_addAll (s : Schedule) (sites : List String) :
    (s.addAll sites).inFlight = s.inFlight :=
  addAll_keeps (P := fun s' => s'.inFlight = s.inFlight)
    (fun h y => (inFlight_addSite _ y).trans h) rfl sites

theorem graph_addAll (s : Schedule) (sites : List String) :
    (s.addAll sites).graph = s.graph :=
  addAll_keeps (P := fun s' => s'.graph = s.graph)
    (fun h y => (graph_addSite _ y).trans h) rfl sites

theorem pending_addAll (s : Schedule) (sites : List String) :
    (s.addAll sites).pending = s.pending :=
  addAll_keeps (P := fun s' => s'.pending = s.pending)
    (fun h y => (pending_addSite _ y).trans h) rfl sites

/-- Adding sites makes no site infeasible. -/
theorem isFeasible_addAll (s : Schedule) (sites : List String) (y : String) :
    (s.addAll sites).isFeasible y = s.isFeasible y := by
  unfold isFeasible
  rw [inFlight_addAll, graph_addAll]

theorem mem_latent_addAll {y : String} (h : y ∈ s.latent) (sites : List String) :
    y ∈ (s.addAll sites).latent := by
  refine addAll_keeps (P := fun s => y ∈ s.latent) (fun hy z => ?_) h sites
  rw [latent_addSite]
  unfold addNew
  split
  · exact hy
  · exact List.mem_append_left _ hy

theorem total_addAll (h : s.Tallies) (sites : List String) :
    (s.addAll sites).total = s.total :=
  (addAll_keeps (P := fun s' => s'.Tallies ∧ s'.total = s.total)
    (fun h y => ⟨h.1.addSite y, (h.1.total_addSite y).trans h.2⟩) ⟨h, rfl⟩ sites).2

/-! ## The balance -/

/-- **The balance of a course**: what has been launched is in flight, completed or
abandoned, and what has not been launched is left, unless it was drained. -/
structure Balances (g : DependencyGraph) (n : Nat) (past : List Event) (s : Schedule) :
    Prop where
  apart : s.KeepsApart g
  tallies : s.Tallies
  finishes : past.countP Event.isFinish = s.total
  atMost : s.pending + s.inFlight.length + s.total + past.countP Event.isAbandon ≤ n
  exact : (∀ e ∈ past, e.isDrain = false) →
    past.countP Event.isLaunch = s.inFlight.length + s.total + past.countP Event.isAbandon
      ∧ s.pending + past.countP Event.isLaunch = n

theorem balances_create (latent : List String) (g : DependencyGraph) (n : Nat) :
    (create latent g n).Balances g n [] := by
  have htotal := total_create latent g n
  refine ⟨keepsApart_create latent g n, tallies_create latent g n, htotal.symm, ?_,
    fun _ => ⟨?_, rfl⟩⟩
  · rw [htotal]
    exact Nat.le_refl n
  · rw [htotal]
    rfl

/-- A site that has been found is started without complaint, also after sites have
been added. -/
theorem KeepsApart.start_addAll (h : s.KeepsApart source.graph)
    (hw : s.findWork = some site) (late : List String) :
    (s.addAll late).start site = (none, (s.addAll late).begin site) := by
  have hlate : (s.addAll late).KeepsApart source.graph :=
    addAll_keeps (fun h y => h.addSite y) h late
  refine hlate.start_of_isFeasible ?_
  rw [isFeasible_addAll]
  exact (findWork_eq_some hw).2

theorem length_erase_inFlight (h : site ∈ s.inFlight) :
    (s.inFlight.erase site).length + 1 = s.inFlight.length := by
  have hpos := List.length_pos_of_mem h
  rw [List.length_erase_of_mem h]
  omega

/-- **What an event does to the books.** -/
structure Moves.Booked (s : Schedule) (e : Event) (s' : Schedule) : Prop where
  total : s'.total = s.total + [e].countP Event.isFinish
  atMost : s'.pending + s'.inFlight.length + s'.total + [e].countP Event.isAbandon
    ≤ s.pending + s.inFlight.length + s.total
  exact : e.isDrain = false →
    s.inFlight.length + [e].countP Event.isLaunch = s'.inFlight.length
        + [e].countP Event.isFinish + [e].countP Event.isAbandon
      ∧ s'.pending + [e].countP Event.isLaunch = s.pending

theorem Moves.booked {e : Event} (hapart : s.KeepsApart source.graph)
    (htallies : s.Tallies) (move : Moves s e s') : Moves.Booked s e s' := by
  cases move with
  | launch hw late =>
    next site =>
    have hnew : site ∉ (s.addAll late).inFlight := by
      rw [inFlight_addAll]
      exact (isFeasible_iff.mp (findWork_eq_some hw).2).1
    have hpending := pending_ne_zero_of_findWork hw
    have hflight : ((s.addAll late).begin site).inFlight.length
        = s.inFlight.length + 1 := by
      rw [inFlight_begin hnew, inFlight_addAll, List.length_append]
      rfl
    have hleft : ((s.addAll late).begin site).pending = s.pending - 1 :=
      congrArg (· - 1) (pending_addAll s late)
    have htotal : ((s.addAll late).begin site).total = s.total :=
      total_addAll htallies late
    rw [hapart.start_addAll hw late]
    refine ⟨htotal, ?_, fun _ => ?_⟩
    · rw [hflight, hleft, htotal]
      show _ + 0 ≤ _
      omega
    · rw [hflight, hleft]
      show _ + 1 = _ + 0 + 0 ∧ _ + 1 = _
      omega
  | finish hin =>
    have hlength := length_erase_inFlight hin
    refine ⟨total_finish hin, ?_, fun _ => ?_⟩
    · rw [pending_finish, inFlight_finish, total_finish hin]
      show _ + 0 ≤ _
      omega
    · rw [pending_finish, inFlight_finish]
      exact ⟨hlength.symm, rfl⟩
  | abandon hin =>
    next site =>
    have hlength := length_erase_inFlight hin
    refine ⟨rfl, ?_, fun _ => ⟨hlength.symm, rfl⟩⟩
    show s.pending + (s.inFlight.erase site).length + s.total + 1 ≤ _
    omega
  | add site =>
    have htotal := htallies.total_addSite site
    refine ⟨htotal, ?_, fun _ => ?_⟩
    · rw [pending_addSite, inFlight_addSite, htotal]
      exact Nat.le_refl _
    · rw [pending_addSite, inFlight_addSite]
      exact ⟨rfl, rfl⟩
  | drain =>
    refine ⟨rfl, ?_, nofun⟩
    show 0 + s.inFlight.length + s.total + 0 ≤ _
    omega
  | cancel =>
    refine ⟨rfl, ?_, nofun⟩
    show 0 + 0 + s.total + 0 ≤ _
    omega

/-- Every event keeps sites apart. -/
theorem Moves.keepsApart {e : Event} (h : s.KeepsApart source.graph)
    (move : Moves s e s') : s'.KeepsApart source.graph := by
  cases move with
  | launch hw late =>
    have hlate : (s.addAll late).KeepsApart source.graph :=
      addAll_keeps (fun h y => h.addSite y) h late
    rw [h.start_addAll hw late]
    refine hlate.begin ?_
    rw [isFeasible_addAll]
    exact (findWork_eq_some hw).2
  | finish _ => exact h.perform (.finish _)
  | abandon _ => exact h.perform (.abandon _)
  | add site => exact h.addSite site
  | drain => exact h.perform .drain
  | cancel => exact h.perform .cancelAll

/-- Every event keeps the tallies. -/
theorem Moves.tallies {e : Event} (hapart : s.KeepsApart source.graph) (h : s.Tallies)
    (move : Moves s e s') : s'.Tallies := by
  cases move with
  | launch hw late =>
    have hlate : (s.addAll late).Tallies := addAll_keeps (fun h y => h.addSite y) h late
    rw [hapart.start_addAll hw late]
    exact hlate.begin (mem_latent_addAll (findWork_eq_some hw).1 late)
  | finish _ => exact h.finish _
  | abandon _ => exact h.abandon _
  | add site => exact h.addSite site
  | drain => exact h.drain
  | cancel => exact ⟨h.counts, nofun⟩

/-- **Every event keeps the balance.** -/
theorem Balances.next {n : Nat} {past : List Event} {e : Event}
    (h : s.Balances source.graph n past) (move : Moves s e s') :
    s'.Balances source.graph n (past ++ [e]) := by
  have booked := move.booked h.apart h.tallies
  have hmost := booked.atMost
  refine ⟨move.keepsApart h.apart, move.tallies h.apart h.tallies, ?_, ?_, fun hall => ?_⟩
  · rw [List.countP_append, h.finishes, booked.total]
  · have hbefore := h.atMost
    rw [List.countP_append]
    omega
  · obtain ⟨hflight, hpending⟩ := booked.exact
      (hall e (List.mem_append_right _ (List.mem_singleton_self e)))
    obtain ⟨hlaunches, hsum⟩ := h.exact fun e' he' => hall e' (List.mem_append_left _ he')
    have htotal := booked.total
    rw [List.countP_append, List.countP_append]
    omega

/-- **Every course balances.** -/
theorem Course.balances {n : Nat} {past : List Event}
    (h₀ : s₀.Balances source.graph n []) (h : Course s₀ past s) :
    s.Balances source.graph n past := by
  induction h with
  | start => exact h₀
  | next before move ih => exact ih.next move

/-! ## A schedule that is accounted for -/

/-- **A schedule of a given budget that is accounted for**, after some events. -/
structure IsAccounted (g : DependencyGraph) (n : Nat) (past : List Event) (s : Schedule) :
    Prop where
  /-- Only latent sites are in flight. -/
  started : ∀ y ∈ s.inFlight, y ∈ s.latent
  /-- The latent sites are counted, in their order, and no others. -/
  counts : s.counts.keys = s.latent
  /-- As long as nothing is drained, every step of the budget is left, in flight,
  completed or abandoned. -/
  balance : (∀ e ∈ past, e.isDrain = false) →
    s.pending + s.inFlight.length + s.total + past.countP Event.isAbandon = n
  /-- No count goes beyond the budget. -/
  bounded : ∀ y, s.count y ≤ n
  /-- No site is found just if no step is left or every latent site is in flight or
  depends on one that is. -/
  idle : s.findWork = none ↔ s.pending = 0
    ∨ ∀ y ∈ s.latent, y ∈ s.inFlight ∨ ∃ z ∈ s.inFlight, g.depends y z = true
  /-- What is found is the choice of the schedule. -/
  chosen : ∀ x, s.findWork = some x → s.IsChoice x

theorem count_le_total (s : Schedule) (y : String) : s.count y ≤ s.total := by
  unfold count total
  cases hy : s.counts.get? y with
  | none => exact Nat.zero_le _
  | some v =>
    exact List.le_sum_of_mem (List.mem_map.mpr
      ⟨(y, v), OrderedMap.get?_eq_some_iff.mp hy, rfl⟩)

/-- A site that is not feasible is in flight or depends on one that is. -/
theorem not_isFeasible_iff {y : String} : ¬ s.isFeasible y = true
    ↔ y ∈ s.inFlight ∨ ∃ z ∈ s.inFlight, s.graph.depends y z = true := by
  rw [isFeasible_iff]
  grind

theorem Balances.isAccounted {g : DependencyGraph} {n : Nat} {past : List Event}
    (h : s.Balances g n past) : s.IsAccounted g n past where
  started := h.tallies.started
  counts := h.tallies.counts
  balance hall := by
    obtain ⟨hlaunches, hsum⟩ := h.exact hall
    omega
  bounded y := by
    have hle := s.count_le_total y
    have hmost := h.atMost
    omega
  idle := by
    rw [findWork_eq_none_iff, ← h.apart.graph]
    refine or_congr_right (forall₂_congr fun y _ => ?_)
    exact not_isFeasible_iff
  chosen _ := isChoice_of_findWork

/-! ## Strategies -/

/-- **A strategy**, by which a schedule is driven: it may look at all that has
happened. -/
structure Strategy where
  /-- The sites that are added before the next site is looked for. -/
  early : List Event → List String
  /-- The sites that are added after it has been found and before it is started. -/
  late : List Event → List String
  /-- Which of the sites in flight is finished next if none can be started; their
  numbers go round. -/
  pick : List Event → Nat

namespace Strategy

/-- **One turn**: the site that is found is started. If there is none, one of those in
flight is finished. If there is none of these either, nothing happens. -/
def turn (st : Strategy) (past : List Event) (s : Schedule) : List Event × Schedule :=
  let sites := st.early past
  let past := past ++ sites.map .added
  let s := s.addAll sites
  match s.findWork with
  | some site => (past ++ [.launched site], ((s.addAll (st.late past)).start site).2)
  | none =>
    match s.inFlight[st.pick past % s.inFlight.length]? with
    | some site => (past ++ [.finished site], s.finish site)
    | none => (past, s)

/-- The events of so many turns, and the schedule after them. -/
def play (st : Strategy) (s : Schedule) : Nat → List Event × Schedule
  | 0 => ([], s)
  | k + 1 => st.turn (st.play s k).1 (st.play s k).2

/-- **A strategy that spends a budget.** -/
structure Spends (st : Strategy) (s : Schedule) (n : Nat) : Prop where
  /-- In every turn a site is launched or finished, until there have been two turns for
  each step. -/
  turns : ∀ k, (st.play s k).1.countP Event.isLaunch + (st.play s k).1.countP Event.isFinish
    = min k (2 * n)
  /-- Then each step has been launched and finished, and nothing is left to do. -/
  ended : ∀ k, 2 * n ≤ k → (st.play s k).1.countP Event.isLaunch = n
    ∧ (st.play s k).1.countP Event.isFinish = n
    ∧ (st.play s k).2.isDone = true ∧ (st.play s k).2.total = n

end Strategy

/-- Every event leaves latent sites latent. -/
theorem Moves.mem_latent {e : Event} {y : String} (h : s.KeepsApart source.graph)
    (hy : y ∈ s.latent) (move : Moves s e s') : y ∈ s'.latent := by
  cases move with
  | launch hw late =>
    rw [h.start_addAll hw late]
    exact mem_latent_addAll hy late
  | finish _ => rwa [latent_finish]
  | abandon _ => exact hy
  | add site => exact mem_latent_addAll hy [site]
  | drain => exact hy
  | cancel => exact hy

variable {past : List Event} {n : Nat}

/-- **A course on which nothing is wasted**: no site has been abandoned, and the budget
has not been given up. -/
structure Thrifty (g : DependencyGraph) (n : Nat) (past : List Event) (s : Schedule) :
    Prop where
  balances : s.Balances g n past
  unwasted : ∀ e ∈ past, e.isDrain = false ∧ e.isAbandon = false
  known : ∃ y, y ∈ s.latent

theorem Thrifty.next {e : Event} (h : s.Thrifty source.graph n past) (move : Moves s e s')
    (hdrain : e.isDrain = false) (habandon : e.isAbandon = false) :
    s'.Thrifty source.graph n (past ++ [e]) := by
  obtain ⟨y, hy⟩ := h.known
  refine ⟨h.balances.next move, fun e' he' => ?_, y, move.mem_latent h.balances.apart hy⟩
  rcases List.mem_append.mp he' with he' | he'
  · exact h.unwasted e' he'
  · rw [List.mem_singleton.mp he']
    exact ⟨hdrain, habandon⟩

theorem Thrifty.addAll (h : s.Thrifty source.graph n past) (sites : List String) :
    (s.addAll sites).Thrifty source.graph n (past ++ sites.map .added) := by
  induction sites generalizing past s with
  | nil => exact (List.append_nil past).symm ▸ h
  | cons y rest ih =>
    rw [List.map_cons, List.append_cons]
    exact ih (h.next (.add s y) rfl rfl)

/-- How many launches and finishes there have been. -/
def turnsOf (past : List Event) : Nat :=
  past.countP Event.isLaunch + past.countP Event.isFinish

/-- **Where nothing is wasted**, every step is left, in flight or completed. -/
theorem Thrifty.conserves {g : DependencyGraph} (h : s.Thrifty g n past) :
    past.countP Event.isLaunch = s.inFlight.length + s.total
      ∧ s.pending + s.inFlight.length + s.total = n := by
  have hnone : past.countP Event.isAbandon = 0 :=
    List.countP_eq_zero.mpr fun e he => by simp [(h.unwasted e he).2]
  obtain ⟨hlaunches, hsum⟩ := h.balances.exact fun e he => (h.unwasted e he).1
  omega

/-- **Every step that is left takes two more turns**, and one in flight takes one. -/
theorem Thrifty.turnsOf {g : DependencyGraph} (h : s.Thrifty g n past) :
    turnsOf past + 2 * s.pending + s.inFlight.length = 2 * n := by
  obtain ⟨hlaunches, hsum⟩ := h.conserves
  have hfinishes := h.balances.finishes
  unfold Schedule.turnsOf
  omega

theorem turnsOf_append (past events : List Event) :
    turnsOf (past ++ events) = turnsOf past + turnsOf events := by
  unfold turnsOf
  rw [List.countP_append, List.countP_append]
  omega

theorem turnsOf_added (past : List Event) (sites : List String) :
    turnsOf (past ++ sites.map .added) = turnsOf past := by
  have hnone : turnsOf (sites.map .added) = 0 := by
    simp [turnsOf, List.countP_map, Event.isLaunch, Event.isFinish, Function.comp_def]
  rw [turnsOf_append, hnone, Nat.add_zero]

namespace Strategy

/-- **A turn wastes nothing**, and launches or finishes a site as long as there have been
less than two turns for each step. -/
theorem thrifty_turn (st : Strategy) (h : s.Thrifty source.graph n past) :
    (st.turn past s).2.Thrifty source.graph n (st.turn past s).1
      ∧ (turnsOf (st.turn past s).1 = turnsOf past + 1
        ∨ turnsOf (st.turn past s).1 = turnsOf past ∧ turnsOf past = 2 * n) := by
  have hadded := h.addAll (st.early past)
  have hsame := turnsOf_added past (st.early past)
  unfold turn
  dsimp only
  split
  · next site hw =>
    refine ⟨hadded.next (.launch hw _) rfl rfl, .inl ?_⟩
    rw [← hsame]
    exact turnsOf_append _ [.launched site]
  · next hw =>
    split
    · next site hsite =>
      refine ⟨hadded.next (.finish (List.mem_of_getElem? hsite)) rfl rfl, .inl ?_⟩
      rw [← hsame]
      exact turnsOf_append _ [.finished site]
    · next hnone =>
      -- No number is out of range, unless nothing is in flight.
      have hflight : (s.addAll (st.early past)).inFlight = [] := by
        rw [List.getElem?_eq_none_iff] at hnone
        refine List.eq_nil_iff_length_eq_zero.mpr (Nat.eq_zero_of_not_pos fun hpos => ?_)
        exact absurd (Nat.mod_lt _ hpos) (Nat.not_lt.mpr hnone)
      obtain ⟨y, hy⟩ := hadded.known
      have hpending := (findWork_eq_none hw hflight).resolve_right (List.ne_nil_of_mem hy)
      have hturns := hadded.turnsOf
      refine ⟨hadded, .inr ⟨hsame, ?_⟩⟩
      rw [hpending, hflight, hsame] at hturns
      exact hturns

theorem thrifty_play (st : Strategy) (h₀ : s₀.Thrifty source.graph n []) (k : Nat) :
    (st.play s₀ k).2.Thrifty source.graph n (st.play s₀ k).1
      ∧ turnsOf (st.play s₀ k).1 = min k (2 * n) := by
  induction k with
  | zero => exact ⟨h₀, (Nat.zero_min _).symm⟩
  | succ k ih =>
    obtain ⟨hthrifty, hturns⟩ := ih
    obtain ⟨hnext, hstep⟩ := thrifty_turn st hthrifty
    refine ⟨hnext, ?_⟩
    show turnsOf (st.turn (st.play s₀ k).1 (st.play s₀ k).2).1 = _
    have hbound := hnext.turnsOf
    change turnsOf (st.turn (st.play s₀ k).1 (st.play s₀ k).2).1 + _ + _ = _ at hbound
    omega

/-- **Every strategy spends a budget**, if it starts with all of it and with a latent
site. -/
theorem spends (st : Strategy) (h₀ : s₀.Thrifty source.graph n []) : st.Spends s₀ n := by
  refine ⟨fun k => (thrifty_play st h₀ k).2, fun k hk => ?_⟩
  obtain ⟨hthrifty, hturns⟩ := thrifty_play st h₀ k
  rw [Nat.min_eq_right hk] at hturns
  have hleft := hthrifty.turnsOf
  obtain ⟨hlaunches, hsum⟩ := hthrifty.conserves
  have hfinishes := hthrifty.balances.finishes
  have hpending : (st.play s₀ k).2.pending = 0 := by omega
  have hflight : (st.play s₀ k).2.inFlight.length = 0 := by omega
  unfold turnsOf at hturns
  refine ⟨by omega, by omega, ?_, by omega⟩
  rw [isDone, hpending, List.eq_nil_of_length_eq_zero hflight]
  rfl

end Strategy

/-! ## The budget is spent -/

/-- **A budget is spent exactly**, by every strategy, and is accounted for all along
every course, also where sites are abandoned or the budget is drained. -/
theorem budget_spent_exactly (source : GraphSource) {latent : List String}
    (hlatent : latent ≠ []) (n : Nat) :
    (∀ st : Strategy, st.Spends (create latent source.graph n) n)
      ∧ ∀ past s, Course (create latent source.graph n) past s →
        s.IsAccounted source.graph n past := by
  have h₀ := balances_create latent source.graph n
  refine ⟨fun st => st.spends ⟨h₀, nofun, ?_⟩,
    fun past s hs => (hs.balances h₀).isAccounted⟩
  obtain ⟨y, hy⟩ := List.exists_mem_of_ne_nil latent hlatent
  exact ⟨y, mem_latent_create_of_mem hy⟩

/-- A strategy that adds a site after the first one has been found, and then finishes
the sites in flight in varying order. -/
def Strategy.welcoming : Strategy where
  early _ := []
  late past := if past = [] then ["c"] else []
  pick past := past.length

/-- Two sites that depend on each other and one that turns up late spend three steps. -/
theorem budget_spent_exactly_pair :
    ["a", "b"] ≠ []
      ∧ Strategy.welcoming.Spends
        (create ["a", "b"] (GraphSource.edges [("a", "b")]).graph 3) 3
      ∧ ((create ["a", "b"] (GraphSource.edges [("a", "b")]).graph 3).start "b").2.IsAccounted
        (GraphSource.edges [("a", "b")]).graph 3 [.launched "b"] := by
  have h := budget_spent_exactly (.edges [("a", "b")])
    (List.cons_ne_nil "a" ["b"]) 3
  refine ⟨List.cons_ne_nil _ _, h.1 _, h.2 _ _ ?_⟩
  exact .next .start (.launch (by decide) [])

example : (Strategy.welcoming.play
    (create ["a", "b"] (GraphSource.edges [("a", "b")]).graph 3) 6).1
    = [.launched "b", .launched "c", .finished "b", .launched "a", .finished "c",
      .finished "a"] := by
  decide

end Schedule

end Resampler
