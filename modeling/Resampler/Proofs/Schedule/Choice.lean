import Mathlib.Data.List.Induction
import Resampler.Schedule.Basic

/-!
# What a schedule chooses

The site that a schedule finds is latent and feasible, and of those sites it is
the one with the fewest completed steps, the last discovered among equals
(`IsChoice`). None is found only if no step is left or no latent site is
feasible. If every site depends on every other, none is found while one is in
flight.
-/

namespace Resampler

namespace Schedule

theorem mem_foldl_addNew {l acc : List String} {x : String}
    (h : x ∈ l.foldl addNew acc) : x ∈ acc ∨ x ∈ l := by
  induction l generalizing acc with
  | nil => exact .inl h
  | cons site rest ih =>
    rcases ih h with hx | hx
    · unfold addNew at hx
      split at hx
      · exact .inl hx
      · rcases List.mem_append.mp hx with hx | hx
        · exact .inl hx
        · rw [List.mem_singleton.mp hx]
          exact .inr List.mem_cons_self
    · exact .inr (List.mem_cons_of_mem site hx)

theorem mem_foldl_addNew_of_mem {l acc : List String} {x : String}
    (h : x ∈ acc ∨ x ∈ l) : x ∈ l.foldl addNew acc := by
  induction l generalizing acc with
  | nil => exact h.resolve_right List.not_mem_nil
  | cons site rest ih =>
    refine ih ?_
    unfold addNew
    split
    · grind
    · grind

theorem nodup_addNew {l : List String} (h : l.Nodup) (site : String) :
    (addNew l site).Nodup := by
  unfold addNew
  split
  · exact h
  · next hn =>
    refine List.nodup_append.mpr ⟨h, by simp, fun a ha b hb hab => hn ?_⟩
    rwa [← List.mem_singleton.mp hb, ← hab]

theorem nodup_foldl_addNew {l acc : List String} (h : acc.Nodup) :
    (l.foldl addNew acc).Nodup := by
  induction l generalizing acc with
  | nil => exact h
  | cons site rest ih => exact ih (nodup_addNew h site)

/-- **A schedule starts with a count of every latent site**, in their order. -/
theorem keys_counts_create (l : List String) (graph : DependencyGraph)
    (budget : Nat) :
    (create l graph budget).counts.keys = (create l graph budget).latent := by
  have hmap : ((l.foldl addNew []).map fun site => (site, 0)).map Prod.fst
      = l.foldl addNew [] := by
    rw [List.map_map]
    exact List.map_id _
  show (OrderedMap.ofList ((l.foldl addNew []).map fun site => (site, 0))).keys
    = l.foldl addNew []
  rw [OrderedMap.keys_ofList, hmap]
  rw [hmap]
  exact nodup_foldl_addNew List.nodup_nil

/-- The latent sites at first are those that it is made with. -/
theorem mem_latent_create {l : List String} {graph : DependencyGraph} {budget : Nat}
    {x : String} (h : x ∈ (create l graph budget).latent) : x ∈ l := by
  rcases mem_foldl_addNew h with hx | hx
  · cases hx
  · exact hx

theorem mem_latent_create_of_mem {l : List String} {graph : DependencyGraph}
    {budget : Nat} {x : String} (h : x ∈ l) : x ∈ (create l graph budget).latent :=
  mem_foldl_addNew_of_mem (.inr h)

/-- **One candidate of a list is preferred to all others**: it has at most as many
completed steps as those before it, and fewer than those after it. -/
structure Prefers (s : Schedule) (l : List String) (x : String) : Prop where
  least : ∃ earlier later, l = earlier ++ x :: later
    ∧ (∀ y ∈ earlier, s.count x ≤ s.count y) ∧ ∀ y ∈ later, s.count x < s.count y

/-- **The preferred candidate is found** by going through the list once, unless
there is no candidate. -/
theorem foldl_prefer (s : Schedule) (l : List String) :
    l = [] ∧ l.foldl s.prefer none = none
      ∨ ∃ x, l.foldl s.prefer none = some x ∧ s.Prefers l x := by
  -- The last candidate is compared with the preferred one of those before it.
  induction l using List.reverseRecOn with
  | nil => exact .inl ⟨rfl, rfl⟩
  | append_singleton l site ih =>
    refine .inr ?_
    rw [List.foldl_append, List.foldl_cons, List.foldl_nil]
    rcases ih with ⟨rfl, hnone⟩ | ⟨x, hx, earlier, later, rfl, hearlier, hlater⟩
    · rw [hnone]
      exact ⟨site, rfl, [], [], rfl, nofun, nofun⟩
    · rw [hx]
      by_cases hle : s.count site ≤ s.count x
      · refine ⟨site, if_pos hle, _, [], rfl, fun y hy => ?_, nofun⟩
        rcases List.mem_append.mp hy with hy | hy
        · exact Nat.le_trans hle (hearlier y hy)
        · rcases List.mem_cons.mp hy with rfl | hy
          · exact hle
          · exact Nat.le_trans hle (Nat.le_of_lt (hlater y hy))
      · refine ⟨x, if_neg hle, earlier, later ++ [site], ?_, hearlier, fun y hy => ?_⟩
        · rw [List.append_assoc, List.cons_append]
        · rcases List.mem_append.mp hy with hy | hy
          · exact hlater y hy
          · rw [List.mem_singleton.mp hy]
            exact Nat.lt_of_not_le hle

/-- **The choice of a schedule**: a step is left, and of the feasible sites this one
has the fewest completed steps, at most as many as those discovered before it, and
fewer than those discovered after it. -/
structure IsChoice (s : Schedule) (x : String) : Prop where
  pending : s.pending ≠ 0
  feasible : s.isFeasible x = true
  least : ∃ earlier later, s.latent = earlier ++ x :: later
    ∧ (∀ y ∈ earlier, s.isFeasible y = true → s.count x ≤ s.count y)
    ∧ ∀ y ∈ later, s.isFeasible y = true → s.count x < s.count y

/-- **A site that is found is the choice of the schedule.** -/
theorem isChoice_of_findWork {s : Schedule} {x : String} (h : s.findWork = some x) :
    s.IsChoice x := by
  unfold findWork at h
  split at h
  · cases h
  · next hp =>
    rcases s.foldl_prefer (s.latent.filter s.isFeasible) with ⟨-, hnone⟩ | ⟨y, hy, hpref⟩
    · rw [hnone] at h
      cases h
    · rw [hy] at h
      cases h
      obtain ⟨earlier, later, hl, hearlier, hlater⟩ := hpref.least
      -- The candidates around it are the feasible ones among the sites around it.
      obtain ⟨before, rest, hlatent, rfl, hrest⟩ := List.filter_eq_append_iff.mp hl
      obtain ⟨between, after, rfl, hbetween, hf, rfl⟩ := List.filter_eq_cons_iff.mp hrest
      refine ⟨hp, hf, before ++ between, after, ?_, fun z hz hfz => ?_, fun z hz hfz => ?_⟩
      · rw [hlatent, List.append_assoc]
      · rcases List.mem_append.mp hz with hz | hz
        · exact hearlier z (List.mem_filter.mpr ⟨hz, hfz⟩)
        · exact absurd hfz (hbetween z hz)
      · exact hlater z (List.mem_filter.mpr ⟨hz, hfz⟩)

/-- **Nothing is found** just if no step is left or no latent site is feasible. -/
theorem findWork_eq_none_iff {s : Schedule} :
    s.findWork = none ↔ s.pending = 0 ∨ ∀ y ∈ s.latent, ¬ s.isFeasible y = true := by
  unfold findWork
  split
  · next hp => exact ⟨fun _ => .inl hp, fun _ => rfl⟩
  · next hp =>
    rw [or_iff_right hp, ← List.filter_eq_nil_iff]
    rcases s.foldl_prefer (s.latent.filter s.isFeasible) with ⟨hnil, hnone⟩ | ⟨x, hx, hpref⟩
    · exact ⟨fun _ => hnil, fun _ => hnone⟩
    · obtain ⟨earlier, later, hl, -⟩ := hpref.least
      rw [hx, hl]
      simp

/-- **A site that is found is latent and feasible.** -/
theorem findWork_eq_some {s : Schedule} {x : String} (h : s.findWork = some x) :
    x ∈ s.latent ∧ s.isFeasible x = true := by
  obtain ⟨-, hf, earlier, later, hl, -⟩ := isChoice_of_findWork h
  exact ⟨hl ▸ List.mem_append_right _ List.mem_cons_self, hf⟩

theorem pending_ne_zero_of_findWork {s : Schedule} {site : String}
    (h : s.findWork = some site) : s.pending ≠ 0 :=
  (isChoice_of_findWork h).pending

/-- A feasible site is not in flight and depends on none that is. -/
theorem isFeasible_iff {s : Schedule} {x : String} :
    s.isFeasible x = true
      ↔ x ∉ s.inFlight ∧ ∀ y ∈ s.inFlight, s.graph.depends x y = false := by
  simp [isFeasible]

/-- **Where nothing is in flight**, nothing is found only if no step is left or
no site is latent. -/
theorem findWork_eq_none {s : Schedule} (h : s.findWork = none) (hf : s.inFlight = []) :
    s.pending = 0 ∨ s.latent = [] := by
  refine (findWork_eq_none_iff.mp h).imp_right fun hall => ?_
  refine List.eq_nil_iff_forall_not_mem.mpr fun y hy => hall y hy ?_
  rw [isFeasible_iff, hf]
  exact ⟨List.not_mem_nil, nofun⟩

/-- **Where every site depends on every other, they are started one by one.** -/
theorem inFlight_eq_nil_of_findWork {s : Schedule} {x : String}
    (hg : s.graph = .complete) (h : s.findWork = some x) : s.inFlight = [] := by
  obtain ⟨hx, hd⟩ := isFeasible_iff.mp (findWork_eq_some h).2
  refine List.eq_nil_iff_forall_not_mem.mpr fun y hy => ?_
  -- A site does not depend on itself, but one in flight is not feasible either.
  have hxy : x ≠ y := fun he => hx (he ▸ hy)
  have hdep := hd y hy
  rw [hg, DependencyGraph.depends_complete, decide_eq_true hxy] at hdep
  exact Bool.noConfusion hdep

end Schedule

end Resampler
