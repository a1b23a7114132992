import Resampler.OrderedMap

/-!
# Which sites depend on each other

Two sites that depend on each other must not be resampled at the same time.
Dependency has no direction, and no site depends on itself.

A graph keeps a blanket for each site, and whether two sites depend on each
other is looked up in the blanket of the first alone. That this has no
direction is the work of `link`, which enters an edge into the blankets of both
of its ends; `depends_edges` says what comes of it.
-/

namespace Resampler

/-- **Which sites depend on each other.** -/
structure DependencyGraph where
  /-- Whether all of them do, whatever the blankets. -/
  isComplete : Bool
  /-- The sites that a site is linked to. -/
  blankets : OrderedMap String (List String)
deriving DecidableEq

namespace DependencyGraph

/-- Every site depends on every other. -/
def complete : DependencyGraph := ⟨true, .empty⟩

/-- No site depends on another. -/
def independent : DependencyGraph := ⟨false, .empty⟩

/-- The sites that a site is linked to; there are none if it has no blanket. -/
def blanket (g : DependencyGraph) (site : String) : List String :=
  (g.blankets.get? site).getD []

/-- Enter a site into the blanket of another. -/
def enter (g : DependencyGraph) (site other : String) : DependencyGraph :=
  { g with blankets := g.blankets.insert site ((g.blanket site).insert other) }

/-- **Link two sites**, each to the other. A site is not linked to itself. -/
def link (g : DependencyGraph) (a b : String) : DependencyGraph :=
  if a = b then g else (g.enter a b).enter b a

/-- The two sites of each edge depend on each other. -/
def edges (pairs : List (String × String)) : DependencyGraph :=
  pairs.foldl (fun g e => g.link e.1 e.2) independent

/-- **Whether two sites depend on each other**: they are distinct, and the
second is in the blanket of the first. -/
def depends (g : DependencyGraph) (a b : String) : Bool :=
  if a = b then false else g.isComplete || decide (b ∈ g.blanket a)

/-! ## What the blankets hold -/

@[simp] theorem isComplete_link (g : DependencyGraph) (a b : String) :
    (g.link a b).isComplete = g.isComplete := by
  unfold link
  split <;> rfl

theorem mem_blanket_enter (g : DependencyGraph) (site other x y : String) :
    y ∈ (g.enter site other).blanket x
      ↔ y ∈ g.blanket x ∨ x = site ∧ y = other := by
  show y ∈ ((g.blankets.insert site ((g.blanket site).insert other)).get? x).getD []
    ↔ _
  rw [OrderedMap.get?_insert]
  by_cases h : site = x
  · subst h
    rw [if_pos rfl, Option.getD_some, List.mem_insert_iff]
    simp [or_comm]
  · rw [if_neg h]
    simp [blanket, Ne.symm h]

/-- **A link is in the blankets of both of its ends.** -/
theorem mem_blanket_link (g : DependencyGraph) (a b x y : String) :
    y ∈ (g.link a b).blanket x
      ↔ y ∈ g.blanket x ∨ a ≠ b ∧ ((a, b) = (x, y) ∨ (a, b) = (y, x)) := by
  unfold link
  split
  · next h => simp [h]
  · next h =>
    rw [mem_blanket_enter, mem_blanket_enter]
    grind

theorem mem_blanket_foldl_link (pairs : List (String × String))
    (g : DependencyGraph) (x y : String) :
    y ∈ (pairs.foldl (fun g e => g.link e.1 e.2) g).blanket x
      ↔ y ∈ g.blanket x ∨ x ≠ y ∧ ((x, y) ∈ pairs ∨ (y, x) ∈ pairs) := by
  induction pairs generalizing g with
  | nil => simp
  | cons e rest ih =>
    rw [List.foldl_cons, ih, mem_blanket_link]
    simp only [List.mem_cons]
    grind

theorem isComplete_foldl_link (pairs : List (String × String))
    (g : DependencyGraph) :
    (pairs.foldl (fun g e => g.link e.1 e.2) g).isComplete = g.isComplete := by
  induction pairs generalizing g with
  | nil => rfl
  | cons e rest ih => rw [List.foldl_cons, ih, isComplete_link]

/-- **Two sites depend on each other just if one edge holds both**, in either
order. -/
theorem depends_edges {pairs : List (String × String)} {a b : String} :
    (edges pairs).depends a b = true
      ↔ a ≠ b ∧ ((a, b) ∈ pairs ∨ (b, a) ∈ pairs) := by
  have hnone : b ∉ independent.blanket a := List.not_mem_nil
  have hopen : (edges pairs).isComplete = false := isComplete_foldl_link pairs _
  unfold depends
  rw [hopen, edges, Bool.false_or]
  by_cases h : a = b
  · simp [h]
  · simp [mem_blanket_foldl_link, hnone, h]

@[simp] theorem depends_complete (a b : String) :
    complete.depends a b = decide (a ≠ b) := by
  by_cases h : a = b <;> simp [depends, complete, h]

@[simp] theorem depends_self (g : DependencyGraph) (a : String) :
    g.depends a a = false := by
  simp [depends]

end DependencyGraph

/-- **How dependency is declared.** -/
inductive Dependencies where
  /-- Every site depends on every other. -/
  | complete
  /-- No site depends on another. -/
  | independent
  /-- Every site depends on those in its blanket. -/
  | blankets (blankets : OrderedMap String (List String))

namespace Dependencies

/-- The dependency that is declared. -/
def graph : Dependencies → DependencyGraph
  | .complete => .complete
  | .independent => .independent
  | .blankets bs =>
    .edges (bs.entries.flatMap fun e => e.2.map fun other => (e.1, other))

end Dependencies

end Resampler
