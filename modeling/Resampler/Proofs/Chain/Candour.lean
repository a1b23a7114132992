import Resampler.Proofs.Chain.Observation
import Resampler.Proofs.Chain.Regime

/-!
# Answering observations candidly

A program that observes a value goes on with what it is answered. That is the value
itself, except under an interpreter that answers everything with one value: all others
pass an observation on or answer it as it came. A chain without such an interpreter is
*candid*, and what its recorders have of an observation is what was observed. All chains
of shipped interpreters are.
-/

namespace Resampler

/-- **Answering an observation with its own value**, or not at all. -/
def Candid (f : Answerer) : Prop :=
  ∀ {site : Site} {key : Option RandomKey} {s : Shared} {v w : Json},
    site.observed = some v → (f site key s).1 = .value w → w = v

theorem Handler.candid_draw {id : Nat} {h : Handler} {next : Answerer}
    (hc : ∀ v, h ≠ .constant v) (hn : Candid next) : Candid (h.draw id next) := by
  intro site key s v w ho hw
  cases h with
  | standard detectReuse =>
    change (drawStandard id detectReuse site key s).1 = _ at hw
    unfold drawStandard at hw
    rw [ho] at hw
    cases hw
    rfl
  | thread force =>
    change (drawThread id force next site key s).1 = _ at hw
    unfold drawThread at hw
    rw [ho] at hw
    exact hn ho hw
  | memo cache =>
    change (drawMemo cache next site key s).1 = _ at hw
    unfold drawMemo at hw
    rw [ho] at hw
    exact hn ho hw
  | persistent store =>
    change (drawPersistent store next site key s).1 = _ at hw
    unfold drawPersistent at hw
    rw [ho] at hw
    exact hn ho hw
  | recorder =>
    change (drawRecorder id next site key s).1 = _ at hw
    unfold drawRecorder at hw
    split at hw
    · cases hw
    · split at hw
      · next v' s' hv' =>
        split at hw
        · cases hw
        · cases hw
          exact hn ho (by rw [hv'])
      · exact hn ho hw
  | condition data =>
    change (drawCondition data next site key s).1 = _ at hw
    unfold drawCondition at hw
    rw [ho] at hw
    exact hn ho hw
  | replay values =>
    change (drawReplay values site key s).1 = _ at hw
    unfold drawReplay at hw
    rw [ho] at hw
    cases hw
    rfl
  | substitute d =>
    have ho' : ({ site with distribution := d } : Site).observed = some v := ho
    exact hn ho' hw
  | spy => exact hn ho hw
  | constant value => exact absurd rfl (hc value)
  | rekey key' => exact hn ho hw

namespace Chain

/-- **Chains without an interpreter that answers everything with one value**, also
on their branches. -/
def IsCandid : Chain → Prop
  | .empty => True
  | .link _ h rest => (∀ v, h ≠ .constant v) ∧ rest.IsCandid
  | .branch _ _ alternate rest => alternate.IsCandid ∧ rest.IsCandid

theorem IsCandid.draw {c : Chain} (hc : c.IsCandid) : Candid c.draw := by
  induction c with
  | empty =>
    intro site key s v w ho hw
    change site.unanswered = _ at hw
    unfold Site.unanswered at hw
    rw [ho] at hw
    cases hw
    rfl
  | link id h rest ih => exact Handler.candid_draw hc.1 (ih hc.2)
  | branch id selects alternate rest iha ihr =>
    intro site key s v w ho hw
    cases hs : selects site.name site.distribution with
    | true =>
      rw [draw_branch_of_selects hs] at hw
      exact iha hc.1 ho hw
    | false =>
      rw [draw_branch_of_not_selects hs] at hw
      exact ihr hc.2 ho hw

/-- Chains of shipped interpreters are candid. -/
theorem IsShipped.isCandid {c : Chain} (hc : c.IsShipped) : c.IsCandid := by
  induction c with
  | empty => trivial
  | link id h rest ih =>
    refine ⟨?_, ih hc.2⟩
    rintro v rfl
    exact hc.1
  | branch id selects alternate rest iha ihr => exact ⟨iha hc.1, ihr hc.2⟩

/-! ## What is recorded -/

/-- **A draw through a recorder** that comes to a value was not recorded before,
and nothing else has been recorded under it. -/
theorem recorded_draw {i : Nat} {inner : Chain} {site : Site} {key : Option RandomKey}
    {s : Shared} {v : Json} (h : ((link i .recorder inner).draw site key s).1 = .value v) :
    (inner.draw site key s).1 = .value v ∧ (s.trace i).contains site.name = false
      ∧ ((link i .recorder inner).draw site key s).2.trace i
        = (s.trace i).insert site.name (site.node key v) := by
  have heq := inner.trace_draw_eq site key s i
  change (Handler.drawRecorder i inner.draw site key s).1 = _ at h
  show _ ∧ _ ∧ (Handler.drawRecorder i inner.draw site key s).2.trace i = _
  unfold Handler.drawRecorder at h ⊢
  by_cases hc : (s.trace i).contains site.name = true
  · rw [if_pos hc] at h
    cases h
  · rw [if_neg hc] at h ⊢
    generalize inner.draw site key s = out at h heq ⊢
    obtain ⟨reply, s'⟩ := out
    cases reply with
    | failure e => cases h
    | panic payload => cases h
    | value w =>
      dsimp only at h heq ⊢
      -- The recorder looks a second time, for the rest of the chain may have recorded.
      by_cases hc' : (s'.trace i).contains site.name = true
      · rw [if_pos hc'] at h
        cases h
      · rw [if_neg hc'] at h ⊢
        cases h
        refine ⟨rfl, Bool.eq_false_iff.mpr hc, ?_⟩
        rw [Shared.trace_setTrace, if_pos rfl, heq (Bool.eq_false_iff.mpr hc')]

end Chain

end Resampler
