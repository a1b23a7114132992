import Resampler.Proofs.Schedule.Choice

/-!
# Dependent sites are never in flight together

A site is started only if it depends on none in flight, and this is looked up
in one direction: in the blanket of the site that is to be started. That no two
sites in flight depend on each other therefore rests on dependency having no
direction, which is so for every graph that can be made (`GraphSource`),
whatever edges it is made of. It then goes on through every operation, in any
order and also for sites that the graph or the schedule does not know
(`KeepsApart`).

What is found can always be started: it passes the test before the start and
the one after it, and every site that is compared when one is chosen has a
count.
-/

namespace Resampler

/-! ## How graphs are made -/

/-- **Whether an edge is declared**, from the first site to the second. -/
def Dependencies.Gives : Dependencies → String → String → Prop
  | .complete, _, _ => True
  | .independent, _, _ => False
  | .blankets bs, a, b => ∃ blanket, bs.get? a = some blanket ∧ b ∈ blanket

/-- **What a graph is made of.** -/
inductive GraphSource where
  /-- Nothing: every site depends on every other. -/
  | complete
  /-- Nothing: no site depends on another. -/
  | independent
  /-- A list of edges. -/
  | edges (pairs : List (String × String))
  /-- A declaration. -/
  | declared (dependencies : Dependencies)

namespace GraphSource

/-- The graph that is made. -/
def graph : GraphSource → DependencyGraph
  | .complete => .complete
  | .independent => .independent
  | .edges pairs => .edges pairs
  | .declared d => d.graph

/-- **Whether an edge is given**, from the first site to the second. -/
def Gives : GraphSource → String → String → Prop
  | .complete, _, _ => True
  | .independent, _, _ => False
  | .edges pairs, a, b => (a, b) ∈ pairs
  | .declared d, a, b => d.Gives a b

theorem depends_independent (a b : String) :
    DependencyGraph.independent.depends a b = false := by
  show DependencyGraph.depends (DependencyGraph.edges []) a b = false
  rw [Bool.eq_false_iff, ne_eq, DependencyGraph.depends_edges]
  simp

/-- The edges of a declaration are those of the blankets. -/
theorem mem_declared_iff {bs : OrderedMap String (List String)} {a b : String} :
    ((a, b) ∈ bs.entries.flatMap fun e => e.2.map fun other => (e.1, other))
      ↔ (Dependencies.blankets bs).Gives a b := by
  rw [List.mem_flatMap]
  constructor
  · rintro ⟨e, he, hab⟩
    obtain ⟨other, ho, heq⟩ := List.mem_map.mp hab
    cases heq
    exact ⟨e.2, OrderedMap.get?_eq_some_iff.mpr he, ho⟩
  · rintro ⟨blanket, hb, hm⟩
    exact ⟨(a, blanket), OrderedMap.get?_eq_some_iff.mp hb,
      List.mem_map.mpr ⟨b, hm, rfl⟩⟩

theorem depends_declared (d : Dependencies) (a b : String) :
    d.graph.depends a b = true ↔ a ≠ b ∧ (d.Gives a b ∨ d.Gives b a) := by
  cases d with
  | complete => simp [Dependencies.graph, Dependencies.Gives]
  | independent =>
    simp [Dependencies.graph, Dependencies.Gives, depends_independent]
  | blankets bs =>
    rw [← mem_declared_iff, ← mem_declared_iff]
    exact DependencyGraph.depends_edges

/-- **Two sites depend on each other just if an edge is given between them**, in
either direction. -/
theorem depends_graph (source : GraphSource) (a b : String) :
    source.graph.depends a b = true
      ↔ a ≠ b ∧ (source.Gives a b ∨ source.Gives b a) := by
  cases source with
  | complete => simp [graph, Gives]
  | independent => simp [graph, Gives, depends_independent]
  | edges pairs => exact DependencyGraph.depends_edges
  | declared d => exact depends_declared d a b

/-- **Dependency has no direction.** -/
theorem depends_comm (source : GraphSource) (a b : String) :
    source.graph.depends a b = source.graph.depends b a := by
  rw [Bool.eq_iff_iff, depends_graph, depends_graph, ne_comm, or_comm]

end GraphSource

namespace Schedule

/-! ## What is started -/

/-- Where no two sites depend on each other, nothing is in conflict. -/
theorem conflicting_eq_false {graph : DependencyGraph} {l : List String}
    (h : ∀ a ∈ l, ∀ b ∈ l, graph.depends a b = false) :
    conflicting graph l = false := by
  induction l with
  | nil => rfl
  | cons site rest ih =>
    rw [conflicting, Bool.or_eq_false_iff, List.any_eq_false]
    refine ⟨fun b hb => ?_, ih fun a ha b hb => ?_⟩
    · rw [h site List.mem_cons_self b (List.mem_cons_of_mem site hb)]
      exact Bool.false_ne_true
    · exact h a (List.mem_cons_of_mem site ha) b (List.mem_cons_of_mem site hb)

/-- A site that is not in flight comes last there when it is started. -/
theorem inFlight_begin {s : Schedule} {site : String} (h : site ∉ s.inFlight) :
    (s.begin site).inFlight = s.inFlight ++ [site] :=
  if_neg h

/-- **A schedule that keeps the sites of a graph apart**: no site is in flight
twice, and no two in flight depend on each other. -/
structure KeepsApart (g : DependencyGraph) (s : Schedule) : Prop where
  graph : s.graph = g
  once : s.inFlight.Nodup
  apart : ∀ a ∈ s.inFlight, ∀ b ∈ s.inFlight, g.depends a b = false

variable {source : GraphSource} {g : DependencyGraph} {s : Schedule}
variable {site : String}

/-- **A feasible site joins those in flight**; that it depends on none of them
also means that none of them depends on it. -/
theorem KeepsApart.begin (h : s.KeepsApart source.graph)
    (hf : s.isFeasible site = true) : (s.begin site).KeepsApart source.graph := by
  obtain ⟨hnew, hfree⟩ := isFeasible_iff.mp hf
  rw [h.graph] at hfree
  have hmem : ∀ {x}, x ∈ (s.begin site).inFlight ↔ x ∈ s.inFlight ∨ x = site := by
    intro x
    rw [inFlight_begin hnew, List.mem_append, List.mem_singleton]
  refine ⟨h.graph, nodup_addNew h.once site, fun a ha b hb => ?_⟩
  rcases hmem.mp ha with ha' | rfl
  · rcases hmem.mp hb with hb' | rfl
    · exact h.apart a ha' b hb'
    · rw [source.depends_comm]
      exact hfree a ha'
  · rcases hmem.mp hb with hb' | rfl
    · exact hfree b hb'
    · exact source.graph.depends_self b

theorem KeepsApart.hasConflict (h : s.KeepsApart g) : s.hasConflict = false := by
  unfold Schedule.hasConflict
  rw [h.graph]
  exact conflicting_eq_false h.apart

/-- **A feasible site is started without complaint.** -/
theorem KeepsApart.start_of_isFeasible (h : s.KeepsApart source.graph)
    (hf : s.isFeasible site = true) : s.start site = (none, s.begin site) := by
  unfold Schedule.start
  rw [if_pos hf, (h.begin hf).hasConflict]
  rfl

/-- A site that is not feasible is not started. -/
theorem start_of_not_isFeasible (h : ¬ s.isFeasible site = true) :
    s.start site = (some (infeasible site), s) :=
  if_neg h

/-- Whatever is taken out of flight, the rest stays apart. -/
theorem KeepsApart.sublist (h : s.KeepsApart g) {s' : Schedule}
    (hg : s'.graph = s.graph) (hsub : s'.inFlight.Sublist s.inFlight) :
    s'.KeepsApart g :=
  ⟨hg.trans h.graph, h.once.sublist hsub,
    fun a ha b hb => h.apart a (hsub.mem ha) b (hsub.mem hb)⟩

/-! ## Every latent site has a count -/

/-- The counts are there for what is compared when a site is chosen. -/
def Counted (s : Schedule) : Prop :=
  ∀ site ∈ s.latent, s.counts.contains site = true

theorem contains_insert_of_contains {m : OrderedMap String Nat} {x y : String}
    {n : Nat} (h : m.contains x = true) : (m.insert y n).contains x = true := by
  rw [OrderedMap.contains, OrderedMap.get?_insert]
  split
  · rfl
  · exact h

theorem Counted.addSite (h : s.Counted) (site : String) :
    (s.addSite site).Counted := by
  unfold Schedule.addSite
  split
  · exact h
  · intro x hx
    rcases List.mem_append.mp hx with hx | hx
    · exact contains_insert_of_contains (h x hx)
    · rw [List.mem_singleton.mp hx, OrderedMap.contains, OrderedMap.get?_insert,
        if_pos rfl]
      rfl

theorem Counted.finish (h : s.Counted) (site : String) :
    (s.finish site).Counted := by
  unfold Schedule.finish
  split
  · exact fun x hx => contains_insert_of_contains (h x hx)
  · exact h

/-! ## Sequences of operations -/

/-- **What can be done with a schedule.** -/
inductive Operation where
  /-- Look for the next site. -/
  | find
  /-- Start a site, or complain. -/
  | start (site : String)
  /-- Complete a step of a site. -/
  | finish (site : String)
  /-- Drop a site that is in flight. -/
  | abandon (site : String)
  /-- Add a latent site. -/
  | add (site : String)
  /-- Start nothing more. -/
  | drain
  /-- Forget what is in flight. -/
  | cancelAll

/-- The schedule after an operation. -/
def perform (s : Schedule) : Operation → Schedule
  | .find => s
  | .start site => (s.start site).2
  | .finish site => s.finish site
  | .abandon site => s.abandon site
  | .add site => s.addSite site
  | .drain => s.drain
  | .cancelAll => s.cancelAll.2

/-- The schedule after a sequence of operations, the first first. -/
def performAll (s : Schedule) (ops : List Operation) : Schedule :=
  ops.foldl perform s

/-- **Every operation keeps sites apart.** -/
theorem KeepsApart.perform (h : s.KeepsApart source.graph) (op : Operation) :
    (s.perform op).KeepsApart source.graph := by
  cases op with
  | find => exact h
  | start site =>
    show (s.start site).2.KeepsApart source.graph
    by_cases hf : s.isFeasible site = true
    · rw [h.start_of_isFeasible hf]
      exact h.begin hf
    · rw [start_of_not_isFeasible hf]
      exact h
  | finish site =>
    refine h.sublist (s.graph_finish site) ?_
    show (s.finish site).inFlight.Sublist s.inFlight
    rw [inFlight_finish]
    exact List.erase_sublist
  | abandon site => exact h.sublist rfl List.erase_sublist
  | add site =>
    have hsame : (s.perform (.add site)).inFlight = s.inFlight := s.inFlight_addSite site
    exact h.sublist (s.graph_addSite site) (hsame ▸ List.Sublist.refl _)
  | drain => exact h.sublist rfl (List.Sublist.refl _)
  | cancelAll => exact h.sublist rfl (List.nil_sublist _)

/-- Every operation keeps the counts. -/
theorem Counted.perform (h : s.Counted) (op : Operation) :
    (s.perform op).Counted := by
  cases op with
  | find => exact h
  | start site =>
    show (s.start site).2.Counted
    unfold Schedule.start
    split
    · exact h
    · exact h
  | finish site => exact h.finish site
  | abandon site => exact h
  | add site => exact h.addSite site
  | drain => exact h
  | cancelAll => exact h

/-- **A schedule under which dependent sites are never in flight together**,
given the edges. -/
structure Excludes (Gives : String → String → Prop) (s : Schedule) : Prop where
  /-- No site is in flight twice. -/
  once : s.inFlight.Nodup
  /-- No edge is given between two different sites in flight. -/
  apart : ∀ a ∈ s.inFlight, ∀ b ∈ s.inFlight, a ≠ b → ¬ Gives a b ∧ ¬ Gives b a
  /-- Whatever is compared when a site is chosen has a count. -/
  counted : ∀ site ∈ s.latent, s.counts.contains site = true
  /-- What is found is feasible, causes no conflict, and so is started without
  complaint. -/
  found : ∀ site, s.findWork = some site → s.isFeasible site = true
    ∧ (s.begin site).hasConflict = false ∧ s.start site = (none, s.begin site)

/-- In a schedule that keeps sites apart no edge is given in flight. -/
theorem KeepsApart.excludes (h : s.KeepsApart source.graph) (hc : s.Counted) :
    s.Excludes source.Gives where
  once := h.once
  apart a ha b hb hne := by
    have hfree := Bool.eq_false_iff.mp (h.apart a ha b hb)
    rw [ne_eq, source.depends_graph, not_and, not_or] at hfree
    exact hfree hne
  counted := hc
  found site hw := by
    have hf := (findWork_eq_some hw).2
    exact ⟨hf, (h.begin hf).hasConflict, h.start_of_isFeasible hf⟩

theorem keepsApart_create (latent : List String) (g : DependencyGraph)
    (budget : Nat) : (create latent g budget).KeepsApart g :=
  ⟨rfl, List.nodup_nil, fun _ ha => nomatch ha⟩

theorem counted_create (latent : List String) (g : DependencyGraph)
    (budget : Nat) : (create latent g budget).Counted := by
  intro site hsite
  rw [← OrderedMap.mem_keys_iff, keys_counts_create]
  exact hsite

/-- A sequence of operations keeps what each of them keeps. -/
theorem performAll_keeps {P : Schedule → Prop}
    (hP : ∀ {s}, P s → ∀ op, P (s.perform op)) (hs : P s) (ops : List Operation) :
    P (s.performAll ops) := by
  induction ops generalizing s with
  | nil => exact hs
  | cons op rest ih => exact ih (hP hs op)

/-- **Dependent sites are never in flight together**, whatever the graph is made
of, and whatever is done with the schedule; and what is found can be started. -/
theorem excludes_performAll (source : GraphSource) (latent : List String)
    (budget : Nat) (ops : List Operation) :
    ((create latent source.graph budget).performAll ops).Excludes source.Gives := by
  have hapart := performAll_keeps KeepsApart.perform
    (keepsApart_create latent source.graph budget) ops
  have hcounted := performAll_keeps Counted.perform
    (counted_create latent source.graph budget) ops
  exact hapart.excludes hcounted

/-- An edge from the first site to the second keeps out the first while the
second is in flight. -/
example : ((create ["a", "b"] (.edges [("a", "b"), ("a", "a")]) 5).performAll
    [.start "b", .start "a", .find]).inFlight = ["b"] := by decide +kernel

end Schedule

end Resampler
