import Resampler.Schedule.Dependency

/-!
# Schedules

A schedule decides which site is resampled next. It knows the latent sites in
the order of their discovery, how many steps each has completed, which sites
are being resampled at the moment, and how many steps are still to be started.

A site is feasible if it is not in flight and depends on none that is. Of the
feasible sites the one with the fewest completed steps is next, and of those
the one discovered last.
-/

namespace Resampler

/-- **A schedule of resampling steps.** -/
structure Schedule where
  /-- Which sites must not be in flight together. -/
  graph : DependencyGraph
  /-- The latent sites, in the order of their discovery. -/
  latent : List String
  /-- The completed steps of each site. -/
  counts : OrderedMap String Nat
  /-- The sites that are being resampled, in the order of their start. -/
  inFlight : List String
  /-- How many steps are still to be started. -/
  pending : Nat

namespace Schedule

/-- Add an element to a list that does not have it. -/
def addNew (l : List String) (site : String) : List String :=
  if site ∈ l then l else l ++ [site]

/-- **A schedule in which no step has been started.** A repeated site counts
once. -/
def create (latent : List String) (graph : DependencyGraph) (budget : Nat) :
    Schedule :=
  let latent := latent.foldl addNew []
  { graph := graph, latent := latent
    counts := .ofList (latent.map fun site => (site, 0))
    inFlight := [], pending := budget }

/-- Add a latent site, with no completed step, unless it is latent already. -/
def addSite (s : Schedule) (site : String) : Schedule :=
  if site ∈ s.latent then s
  else
    { s with
      latent := s.latent ++ [site]
      counts := s.counts.insert site 0 }

/-- The completed steps of a site. -/
def count (s : Schedule) (site : String) : Nat := (s.counts.get? site).getD 0

/-- Whether nothing is in flight and nothing is to be started. -/
def isDone (s : Schedule) : Bool := s.pending = 0 && s.inFlight.isEmpty

/-- **Whether a site may be started.** -/
def isFeasible (s : Schedule) (site : String) : Bool :=
  !decide (site ∈ s.inFlight) && !s.inFlight.any (s.graph.depends site)

/-- Of two candidates, the second coming later, the one with fewer completed
steps, and the later one of equals. -/
def prefer (s : Schedule) (best : Option String) (site : String) :
    Option String :=
  match best with
  | none => some site
  | some b => if s.count site ≤ s.count b then some site else some b

/-- **The next site to start**, if a step is left and a site is feasible. -/
def findWork (s : Schedule) : Option String :=
  if s.pending = 0 then none
  else (s.latent.filter s.isFeasible).foldl s.prefer none

/-- Note that a feasible site has been started. -/
def begin (s : Schedule) (site : String) : Schedule :=
  { s with pending := s.pending - 1, inFlight := addNew s.inFlight site }

/-- Whether two sites of a list depend on each other. -/
def conflicting (graph : DependencyGraph) : List String → Bool
  | [] => false
  | site :: rest => rest.any (graph.depends site) || conflicting graph rest

/-- Whether two sites in flight depend on each other. -/
def hasConflict (s : Schedule) : Bool := conflicting s.graph s.inFlight

/-- The complaint about a site that is not feasible. -/
def infeasible (site : String) : String := "site " ++ site ++ " is not feasible"

/-- The complaint about sites in flight that depend on each other. -/
def conflict : String := "assertion failed: !self.has_conflict()"

/-- **Start a site**: the complaint, if there is one, and the schedule after it.
The site must be feasible, or nothing is started. What is in flight then is
looked over once more. -/
def start (s : Schedule) (site : String) : Option String × Schedule :=
  if s.isFeasible site then
    (if (s.begin site).hasConflict then some conflict else none, s.begin site)
  else (some (infeasible site), s)

/-- The schedule after the start of a site about which there is no complaint. -/
def start? (s : Schedule) (site : String) : Option Schedule :=
  match s.start site with
  | (none, s) => some s
  | (some _, _) => none

/-- Start what is to be started next: the site and the schedule after it. -/
def launch (s : Schedule) : Option (String × Schedule) :=
  s.findWork.map fun site => (site, s.begin site)

/-- Start sites as long as there is one to start, at most `n` of them. -/
def launchUpTo : Nat → Schedule → List String × Schedule
  | 0, s => ([], s)
  | n + 1, s =>
    match s.launch with
    | none => ([], s)
    | some (site, s) =>
      let (sites, s) := launchUpTo n s
      (site :: sites, s)

/-- **Start sites as long as there is one to start.** Every start takes a
pending step, so there are no more of them than that. -/
def launchAll (s : Schedule) : List String × Schedule := launchUpTo s.pending s

/-- **Complete a step** of a site in flight. -/
def finish (s : Schedule) (site : String) : Schedule :=
  if site ∈ s.inFlight then
    { s with
      inFlight := s.inFlight.erase site
      counts := s.counts.insert site (s.count site + 1) }
  else s

/-- Take a site out of flight without completing its step. -/
def abandon (s : Schedule) (site : String) : Schedule :=
  { s with inFlight := s.inFlight.erase site }

/-- Start no further step. -/
def drain (s : Schedule) : Schedule := { s with pending := 0 }

/-- Start no further step and forget what is in flight. -/
def cancelAll (s : Schedule) : List String × Schedule :=
  (s.inFlight, { s with pending := 0, inFlight := [] })

/-! ## What an operation leaves alone -/

@[simp] theorem graph_addSite (s : Schedule) (site : String) :
    (s.addSite site).graph = s.graph := by
  unfold addSite
  split <;> rfl

@[simp] theorem inFlight_addSite (s : Schedule) (site : String) :
    (s.addSite site).inFlight = s.inFlight := by
  unfold addSite
  split <;> rfl

@[simp] theorem graph_finish (s : Schedule) (site : String) :
    (s.finish site).graph = s.graph := by
  unfold finish
  split <;> rfl

@[simp] theorem latent_finish (s : Schedule) (site : String) :
    (s.finish site).latent = s.latent := by
  unfold finish
  split <;> rfl

/-- Finishing a site in flight takes it out of flight. -/
@[simp] theorem inFlight_finish (s : Schedule) (site : String) :
    (s.finish site).inFlight = s.inFlight.erase site := by
  unfold finish
  split
  · rfl
  · next h => exact (List.erase_of_not_mem h).symm

end Schedule

end Resampler
