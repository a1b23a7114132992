import Mathlib.Algebra.GroupWithZero.Nat
import Resampler.Proofs.Schedule.Choice

/-!
# The books of a schedule

A schedule writes down three things about its sites: in which order they were
discovered, how many steps each has completed, and which are in flight. They
agree (`Tallies`): every latent site has a count, in the order of discovery, no
other site has one, and only latent sites are in flight.

The counts are then said through `count`, one site at a time, and `total`, all
of them together. Both change by one where a step is completed, and nowhere
else.
-/

namespace Resampler

/-- Writing a number puts it in the place of the old one in the sum. -/
theorem OrderedMap.sum_values_insert {κ : Type} [DecidableEq κ] (m : OrderedMap κ Nat)
    (k : κ) (n : Nat) :
    (m.insert k n).values.sum + (m.get? k).getD 0 = m.values.sum + n := by
  show ((write k n m.entries).map Prod.snd).sum + (lookup k m.entries).getD 0
    = (m.entries.map Prod.snd).sum + n
  induction m.entries with
  | nil => simp [write, lookup]
  | cons e rest ih =>
    obtain ⟨k', v⟩ := e
    by_cases hk : k' = k
    · simp only [write, lookup, hk, if_true, List.map_cons, List.sum_cons, Option.getD_some]
      omega
    · simp only [write, lookup, hk, if_false, List.map_cons, List.sum_cons]
      omega

namespace Schedule

/-! ## Latent sites and their counts -/

/-- **A schedule that counts its latent sites**, in their order, and has started
no others. -/
structure Tallies (s : Schedule) : Prop where
  counts : s.counts.keys = s.latent
  started : ∀ y ∈ s.inFlight, y ∈ s.latent

variable {s : Schedule} {site : String}

/-- No latent site stands twice. -/
theorem Tallies.nodup (h : s.Tallies) : s.latent.Nodup := by
  rw [← h.counts]
  exact s.counts.distinct

theorem Tallies.addSite (h : s.Tallies) (site : String) : (s.addSite site).Tallies := by
  unfold Schedule.addSite
  split
  · exact h
  · next hn =>
    refine ⟨?_, fun y hy => List.mem_append_left _ (h.started y hy)⟩
    show (s.counts.insert site 0).keys = s.latent ++ [site]
    rw [OrderedMap.keys_insert, h.counts, if_neg hn]

theorem Tallies.begin (h : s.Tallies) (hsite : site ∈ s.latent) :
    (s.begin site).Tallies := by
  refine ⟨h.counts, fun y hy => ?_⟩
  change y ∈ addNew s.inFlight site at hy
  unfold addNew at hy
  split at hy
  · exact h.started y hy
  · rcases List.mem_append.mp hy with hy | hy
    · exact h.started y hy
    · rwa [List.mem_singleton.mp hy]

theorem Tallies.finish (h : s.Tallies) (site : String) : (s.finish site).Tallies := by
  unfold Schedule.finish
  split
  · next hf =>
    refine ⟨?_, fun y hy => h.started y (List.mem_of_mem_erase hy)⟩
    show (s.counts.insert site _).keys = s.latent
    rw [OrderedMap.keys_insert, h.counts, if_pos (h.started site hf)]
  · exact h

theorem Tallies.abandon (h : s.Tallies) (site : String) : (s.abandon site).Tallies :=
  ⟨h.counts, fun y hy => h.started y (List.mem_of_mem_erase hy)⟩

theorem Tallies.drain (h : s.Tallies) : s.drain.Tallies := ⟨h.counts, h.started⟩

theorem tallies_create (latent : List String) (g : DependencyGraph) (budget : Nat) :
    (create latent g budget).Tallies :=
  ⟨keys_counts_create latent g budget, fun _ hy => nomatch hy⟩

/-! ## Completed steps -/

/-- The completed steps of all sites. -/
def total (s : Schedule) : Nat := s.counts.values.sum

/-- A site that is not latent has no completed step. -/
theorem Tallies.get?_counts (h : s.Tallies) {site : String} (hs : site ∉ s.latent) :
    s.counts.get? site = none := by
  rw [← OrderedMap.contains_eq_false_iff, ← Bool.not_eq_true, ← OrderedMap.mem_keys_iff,
    h.counts]
  exact hs

theorem Tallies.count_addSite (h : s.Tallies) (site y : String) :
    (s.addSite site).count y = s.count y := by
  unfold Schedule.addSite
  split
  · rfl
  · next hs =>
    show ((s.counts.insert site 0).get? y).getD 0 = (s.counts.get? y).getD 0
    rw [OrderedMap.get?_insert]
    split
    · next he => rw [← he, h.get?_counts hs]; rfl
    · rfl

theorem Tallies.total_addSite (h : s.Tallies) (site : String) :
    (s.addSite site).total = s.total := by
  unfold Schedule.addSite
  split
  · rfl
  · next hs =>
    have hsum := s.counts.sum_values_insert site 0
    rw [h.get?_counts hs] at hsum
    exact hsum

theorem count_finish {site : String} (h : site ∈ s.inFlight) (y : String) :
    (s.finish site).count y = s.count y + if site = y then 1 else 0 := by
  unfold finish
  rw [if_pos h]
  show ((s.counts.insert site _).get? y).getD 0 = (s.counts.get? y).getD 0 + _
  rw [OrderedMap.get?_insert]
  split
  · next he => rw [← he]; rfl
  · rfl

theorem total_finish {site : String} (h : site ∈ s.inFlight) :
    (s.finish site).total = s.total + 1 := by
  have hsum := s.counts.sum_values_insert site (s.count site + 1)
  unfold finish
  rw [if_pos h]
  show (s.counts.insert site _).values.sum = s.counts.values.sum + 1
  unfold count at hsum ⊢
  omega

/-- At first no site has a completed step. -/
theorem count_create (latent : List String) (g : DependencyGraph) (budget : Nat)
    (y : String) : (create latent g budget).count y = 0 := by
  have hzero : ∀ l : List String,
      (OrderedMap.lookup y (l.map fun site => (site, 0))).getD 0 = 0 := by
    intro l
    induction l with
    | nil => rfl
    | cons site rest ih =>
      rw [List.map_cons, OrderedMap.lookup]
      split
      · rfl
      · exact ih
  have hnodup : (((latent.foldl addNew []).map fun site => (site, 0)).map Prod.fst).Nodup := by
    rw [List.map_map]
    exact (List.map_id _).symm ▸ nodup_foldl_addNew List.nodup_nil
  show ((OrderedMap.ofList ((latent.foldl addNew []).map fun site => (site, 0))).get? y).getD 0
    = 0
  rw [OrderedMap.ofList, OrderedMap.get?_insertAll_of_nodup hnodup, OrderedMap.get?_empty,
    Option.or_none]
  exact hzero _

theorem total_create (latent : List String) (g : DependencyGraph) (budget : Nat) :
    (create latent g budget).total = 0 := by
  rw [total, List.sum_eq_zero_iff_forall_eq_nat]
  intro v hv
  obtain ⟨e, he, rfl⟩ := List.mem_map.mp hv
  have hcount := count_create latent g budget e.1
  rwa [count, OrderedMap.get?_eq_some_iff.mpr he] at hcount

theorem latent_addSite (s : Schedule) (site : String) :
    (s.addSite site).latent = addNew s.latent site := by
  unfold addSite addNew
  split <;> rfl

/-! ## Steps that are left -/

@[simp] theorem pending_addSite (s : Schedule) (site : String) :
    (s.addSite site).pending = s.pending := by
  unfold addSite
  split <;> rfl

@[simp] theorem pending_finish (s : Schedule) (site : String) :
    (s.finish site).pending = s.pending := by
  unfold finish
  split <;> rfl

end Schedule

end Resampler
