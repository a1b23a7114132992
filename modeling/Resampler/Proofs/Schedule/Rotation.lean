import Mathlib.Data.List.Nodup
import Resampler.Proofs.Schedule.Exclusion
import Resampler.Proofs.Schedule.Tally

/-!
# Where all sites depend on each other, they take turns

If every site depends on every other, a step is over before the next one is started,
and nothing is in flight when a site is chosen. The choice is then among all latent
sites, and it is the last discovered of those that have the fewest completed steps. So
the sites take turns, from the last one to the first and then from the last one again,
as long as there is a step left.

How often a site has had its turn is said in closed form: after `k` steps the `i`-th of
`m` sites has completed `(k + i) / m` of them. The choice is read off these numbers. They
grow with `i`, by one at a single place, and the site before that place is next; its
number is the only one that a further step changes.
-/

namespace Resampler

namespace Schedule

/-! ## One step after the other -/

/-- **The next step under way**: the site that is found, and the schedule once it has
been started, if there is nothing to be said against that. -/
def next? (s : Schedule) : Option (String × Schedule) :=
  s.findWork.bind fun site => (s.start? site).map fun running => (site, running)

/-- **The schedule after so many steps**, each of which is found, started and finished
before the next one is looked for. -/
def afterSteps (s : Schedule) : Nat → Option Schedule
  | 0 => some s
  | k + 1 => (s.afterSteps k).bind fun t =>
    t.next?.map fun step => step.2.finish step.1

variable {s : Schedule} {sites : List String} {n k i m : Nat}

/-- Sites that are all distinct are latent as they are listed. -/
theorem foldl_addNew_of_nodup {acc : List String} (h : (acc ++ sites).Nodup) :
    sites.foldl addNew acc = acc ++ sites := by
  induction sites generalizing acc with
  | nil => exact (List.append_nil acc).symm
  | cons site rest ih =>
    have hnew : site ∉ acc := fun hmem =>
      (List.nodup_append.mp h).2.2 site hmem site List.mem_cons_self rfl
    rw [List.append_cons] at h
    rw [List.foldl_cons, addNew, if_neg hnew, ih h, ← List.append_cons]

/-- Where nothing is in flight, every site is feasible. -/
theorem isFeasible_of_idle (h : s.inFlight = []) (site : String) :
    s.isFeasible site = true := by
  rw [isFeasible_iff, h]
  exact ⟨List.not_mem_nil, nofun⟩

theorem inFlight_begin_of_idle (h : s.inFlight = []) (site : String) :
    (s.begin site).inFlight = [site] := by
  rw [inFlight_begin (h ▸ List.not_mem_nil), h, List.nil_append]

/-- Where nothing is in flight, a site is started without complaint. -/
theorem start?_of_idle (h : s.inFlight = []) (site : String) :
    s.start? site = some (s.begin site) := by
  have hcalm : (s.begin site).hasConflict = false := by
    rw [hasConflict, inFlight_begin_of_idle h]
    rfl
  unfold start? start
  rw [if_pos (isFeasible_of_idle h site), hcalm]
  rfl

/-- **While one of the sites runs that all depend on each other**, none is feasible. -/
theorem isFeasible_begin (hg : s.graph = .complete) (h : s.inFlight = [])
    (site other : String) : (s.begin site).isFeasible other = false := by
  rw [Bool.eq_false_iff, ne_eq, isFeasible_iff, inFlight_begin_of_idle h]
  rintro ⟨hout, hfree⟩
  have hne : other ≠ site := fun he => hout (List.mem_singleton.mpr he)
  have hapart : s.graph.depends other site = false := hfree site List.mem_cons_self
  rw [hg, DependencyGraph.depends_complete, decide_eq_true hne] at hapart
  cases hapart

/-! ## How often the turn has come round -/

/-- Less than two rounds further there is at most one more. -/
theorem add_div_eq {j : Nat} (h : k % m + j < 2 * m) :
    (k + j) / m = k / m + if k % m + j < m then 0 else 1 := by
  have hm : 0 < m := by omega
  have hk : k + j = m * (k / m) + (k % m + j) := by
    rw [← Nat.add_assoc, Nat.div_add_mod]
  rw [hk, Nat.mul_add_div hm]
  split
  · next hlt => rw [Nat.div_eq_of_lt hlt]
  · next hge =>
    have hone : (k % m + j) / m = 1 := Nat.div_eq_of_lt_le (by omega) (by omega)
    rw [hone]

/-- **A further step changes one of the numbers**, that of the site whose turn it is. -/
theorem turns_succ (hi : i < m) :
    (k + 1 + i) / m = (k + i) / m + if i = m - 1 - k % m then 1 else 0 := by
  have hmod : k % m < m := Nat.mod_lt k (Nat.zero_lt_of_lt hi)
  rw [Nat.add_assoc k 1 i, add_div_eq (by omega), add_div_eq (by omega)]
  split <;> split <;> split <;> omega

/-- **A schedule in which the sites have taken turns**, for so many steps of a budget,
and nothing is in flight. -/
structure InTurn (sites : List String) (n k : Nat) (s : Schedule) : Prop where
  graph : s.graph = .complete
  latent : s.latent = sites
  keys : s.counts.keys = sites
  idle : s.inFlight = []
  pending : s.pending + k = n
  count : ∀ i (hi : i < sites.length), s.count sites[i] = (k + i) / sites.length

theorem inTurn_create (hdistinct : sites.Nodup) (n : Nat) :
    (create sites .complete n).InTurn sites n 0 := by
  have hlatent : (create sites .complete n).latent = sites := by
    show sites.foldl addNew [] = [] ++ sites
    exact foldl_addNew_of_nodup hdistinct
  refine ⟨rfl, hlatent, ?_, rfl, rfl, fun i hi => ?_⟩
  · rw [keys_counts_create, hlatent]
  · rw [count_create, Nat.zero_add, Nat.div_eq_of_lt hi]

/-- What stands before a place in a list, and what stands after it. -/
theorem getElem_mem_of_split {earlier later : List String} {x : String}
    (hsplit : sites = earlier ++ x :: later) (hi : i < sites.length) :
    (i < earlier.length → sites[i] ∈ earlier) ∧ (earlier.length < i → sites[i] ∈ later) := by
  subst hsplit
  refine ⟨fun hlt => ?_, fun hgt => ?_⟩
  · rw [List.getElem_append_left hlt]
    exact List.getElem_mem hlt
  · obtain ⟨j, rfl⟩ := Nat.exists_eq_add_of_lt hgt
    have hj : j < later.length := by
      rw [List.length_append, List.length_cons] at hi
      omega
    have hplace : (earlier ++ x :: later)[earlier.length + j + 1] = later[j] := by
      simp [List.getElem_append_right, Nat.add_assoc]
    rw [hplace]
    exact List.getElem_mem hj

/-- **The choice is the site whose turn it is.** -/
theorem InTurn.findWork (h : s.InTurn sites n k) (hk : k < n)
    (hturn : sites.length - 1 - k % sites.length < sites.length) :
    s.findWork = some sites[sites.length - 1 - k % sites.length] := by
  have hmod : k % sites.length < sites.length := Nat.mod_lt k (Nat.zero_lt_of_lt hturn)
  have hpending := h.pending
  cases hw : s.findWork with
  | none =>
    have hnone := (findWork_eq_none hw h.idle).resolve_left (by omega)
    rw [h.latent.symm.trans hnone] at hturn
    cases hturn
  | some x =>
    obtain ⟨-, -, earlier, later, hsplit, hearlier, hlater⟩ := isChoice_of_findWork hw
    rw [h.latent] at hsplit
    have hplace : earlier.length < sites.length := by simp [hsplit]
    have hsides := getElem_mem_of_split hsplit hturn
    have hx : sites[earlier.length] = x := by simp [hsplit]
    have hcount := h.count _ hplace
    rw [hx, add_div_eq (by omega)] at hcount
    have hcount' := h.count _ hturn
    rw [add_div_eq (by omega), if_pos (by omega)] at hcount'
    -- A site before its turn is not the last of the fewest, one after it has one more.
    rcases Nat.lt_trichotomy earlier.length (sites.length - 1 - k % sites.length)
      with hlt | heq | hgt
    · have hless := hlater _ (hsides.2 hlt) (isFeasible_of_idle h.idle _)
      omega
    · simp only [← heq, hx]
    · have hleast := hearlier _ (hsides.1 hgt) (isFeasible_of_idle h.idle _)
      rw [if_neg (by omega)] at hcount
      omega

/-- **One step**: the site whose turn it is runs alone, and when it has finished it is the
next one's turn. -/
theorem InTurn.next? (h : s.InTurn sites n k) (hdistinct : sites.Nodup) (hk : k < n)
    (hturn : sites.length - 1 - k % sites.length < sites.length) :
    s.next? = some (sites[sites.length - 1 - k % sites.length],
        s.begin sites[sites.length - 1 - k % sites.length])
      ∧ ((s.begin sites[sites.length - 1 - k % sites.length]).finish
        sites[sites.length - 1 - k % sites.length]).InTurn sites n (k + 1) := by
  have hfound := h.findWork hk hturn
  generalize hsite : sites[sites.length - 1 - k % sites.length] = site at hfound ⊢
  have hflight := inFlight_begin_of_idle h.idle site
  have hruns : site ∈ (s.begin site).inFlight := hflight ▸ List.mem_cons_self
  have htally : (s.begin site).counts.keys = sites := h.keys
  refine ⟨?_, ?_⟩
  · rw [Schedule.next?, hfound, Option.bind_some, start?_of_idle h.idle]
    rfl
  refine ⟨?_, ?_, ?_, ?_, ?_, fun i hi => ?_⟩
  · rw [graph_finish]
    exact h.graph
  · rw [latent_finish]
    exact h.latent
  · unfold finish
    rw [if_pos hruns]
    show ((s.begin site).counts.insert site _).keys = sites
    rw [OrderedMap.keys_insert, htally, if_pos (hsite ▸ List.getElem_mem hturn)]
  · rw [inFlight_finish, hflight]
    exact List.erase_cons_head _ _
  · have hpending := h.pending
    rw [pending_finish]
    show s.pending - 1 + (k + 1) = n
    omega
  · have hplace : site = sites[i] ↔ i = sites.length - 1 - k % sites.length := by
      rw [← hsite, hdistinct.getElem_inj_iff, eq_comm]
    rw [count_finish hruns, turns_succ hi, ← h.count i hi]
    simp only [hplace]
    rfl

/-! ## Taking turns -/

/-- **A schedule under which the sites take turns**, after so many steps of a budget. -/
structure TakesTurns (sites : List String) (n k : Nat) (s : Schedule) : Prop where
  /-- The sites have a count each, in their order, and nothing else has. -/
  keys : s.counts.keys = sites
  /-- Each has completed a step as often as its turn has come round. -/
  counts : ∀ i (hi : i < sites.length),
    s.counts.get? sites[i] = some ((k + i) / sites.length)
  /-- No site is ahead of another by more than one step. -/
  level : ∀ a ∈ sites, ∀ b ∈ sites, s.count a ≤ s.count b + 1
  /-- After a whole round every site has completed a step. -/
  served : sites.length ≤ k → ∀ a ∈ sites, 1 ≤ s.count a
  /-- As long as a step is left, the next one is for the site that is as many places before
  the last as there have been steps since the last whole round. While it runs, the counts
  stand still, and no site is feasible or found. -/
  next : k < n → ∃ site running, sites[sites.length - 1 - k % sites.length]? = some site
    ∧ s.next? = some (site, running) ∧ running.counts = s.counts
    ∧ (∀ other, running.isFeasible other = false) ∧ running.findWork = none
  /-- With the last step the schedule is done. -/
  ended : k = n → s.isDone = true

theorem InTurn.get?_counts (h : s.InTurn sites n k) {i : Nat} (hi : i < sites.length) :
    s.counts.get? sites[i] = some ((k + i) / sites.length) := by
  have hmem : sites[i] ∈ s.counts.keys := h.keys ▸ List.getElem_mem hi
  obtain ⟨c, hc⟩ := OrderedMap.contains_iff.mp (OrderedMap.mem_keys_iff.mp hmem)
  have hcount := h.count i hi
  rw [Schedule.count, hc, Option.getD_some] at hcount
  rw [hc, hcount]

theorem InTurn.takesTurns (h : s.InTurn sites n k) (hdistinct : sites.Nodup)
    (hsites : sites ≠ []) : s.TakesTurns sites n k := by
  have hpos : 0 < sites.length := List.length_pos_iff.mpr hsites
  have hmod : k % sites.length < sites.length := Nat.mod_lt k hpos
  -- Every count is that of the rounds that are complete, or one more.
  have hround : ∀ a ∈ sites, k / sites.length ≤ s.count a
      ∧ s.count a ≤ k / sites.length + 1 := by
    intro a ha
    obtain ⟨i, hi, rfl⟩ := List.mem_iff_getElem.mp ha
    rw [h.count i hi, add_div_eq (by omega)]
    split <;> omega
  refine ⟨h.keys, fun i hi => h.get?_counts hi, fun a ha b hb => ?_, fun hk a ha => ?_,
    fun hk => ?_, fun hk => ?_⟩
  · exact Nat.le_trans (hround a ha).2 (Nat.add_le_add_right (hround b hb).1 1)
  · exact Nat.le_trans (Nat.div_pos hk hpos) (hround a ha).1
  · have hturn : sites.length - 1 - k % sites.length < sites.length := by omega
    have hblocked := isFeasible_begin h.graph h.idle
      sites[sites.length - 1 - k % sites.length]
    refine ⟨_, _, List.getElem?_eq_getElem hturn, (h.next? hdistinct hk hturn).1, rfl,
      hblocked, ?_⟩
    exact findWork_eq_none_iff.mpr (.inr fun y _ => Bool.eq_false_iff.mp (hblocked y))
  · have hpending := h.pending
    rw [isDone, h.idle, Bool.and_eq_true, decide_eq_true_iff]
    exact ⟨by omega, rfl⟩

/-- **The run**: as long as the budget lasts, every step leads to the next one's turn. -/
theorem exists_inTurn (hdistinct : sites.Nodup) (hsites : sites ≠ []) (hk : k ≤ n) :
    ∃ s, (create sites .complete n).afterSteps k = some s ∧ s.InTurn sites n k := by
  have hpos : 0 < sites.length := List.length_pos_iff.mpr hsites
  induction k with
  | zero => exact ⟨_, rfl, inTurn_create hdistinct n⟩
  | succ k ih =>
    obtain ⟨s, hs, h⟩ := ih (Nat.le_of_lt hk)
    have hturn : sites.length - 1 - k % sites.length < sites.length := by omega
    obtain ⟨hnext, hround⟩ := h.next? hdistinct hk hturn
    refine ⟨_, ?_, hround⟩
    rw [afterSteps, hs, Option.bind_some, hnext]
    rfl

/-- **Sites that all depend on each other take turns in the reverse order of their
discovery**, whatever the budget: every step is found and started without complaint, and
after each of them the counts are level. -/
theorem takesTurns_afterSteps (hdistinct : sites.Nodup) (hsites : sites ≠ []) (n : Nat)
    (hk : k ≤ n) :
    ∃ s, (create sites .complete n).afterSteps k = some s ∧ s.TakesTurns sites n k := by
  obtain ⟨s, hs, h⟩ := exists_inTurn hdistinct hsites hk
  exact ⟨s, hs, h.takesTurns hdistinct hsites⟩

/-- Three sites, after four of seven steps. -/
theorem takesTurns_afterSteps_three : ["a", "b", "c"].Nodup ∧ ["a", "b", "c"] ≠ [] ∧ 4 ≤ 7
    ∧ ∃ s, (create ["a", "b", "c"] .complete 7).afterSteps 4 = some s
      ∧ s.TakesTurns ["a", "b", "c"] 7 4 := by
  have hdistinct : ["a", "b", "c"].Nodup := by decide
  exact ⟨hdistinct, List.cons_ne_nil _ _, by decide,
    takesTurns_afterSteps hdistinct (List.cons_ne_nil _ _) 7 (by decide)⟩

example : ((create ["a", "b", "c"] .complete 7).afterSteps 7).map (·.counts.entries)
    = some [("a", 2), ("b", 2), ("c", 3)] := by decide +kernel

end Schedule

end Resampler
