import Resampler.Proofs.Sampler.Completeness

/-!
# What becomes of the errors of units

Every unit that a call starts is taken back, and an error that it ended in is either
reported or dropped. Which of the two is decided by the error alone. An error that is
not a cancellation is never lost: the call fails, because of that error or of another
one, or because the sampler was cancelled (`Reports.fails`).

A cancellation is taken for an effect of another one, that of the sampler or that of a
unit that failed, which is reported in its place. But a program may return a
cancellation of its own, bare or inside the failure of a site, while nobody has
cancelled the sampler. Then its unit is dropped and nothing is reported: the call
answers, although it has taken fewer steps than it was asked for
(`forsaking_swallows`). How many are missing is how many units were dropped
(`Reports.spent`).
-/

namespace Resampler

namespace Sampler

variable {σ : Type} {g : Sampler σ} {steps : Nat} {s : Shared}

/-- **What a call reports** of the units that it started. -/
structure Reports (g : Sampler σ) (steps : Nat) (s : Shared) : Prop where
  /-- Every unit that was started was taken back once, in its turn. -/
  handled : (g.ledger steps s).map Prod.fst = g.started steps s
  /-- If one ended in an error that is not a cancellation, then the call fails, because of
  a unit or a local posterior, or because the sampler was cancelled. -/
  fails : ∀ p ∈ g.ledger steps s, ∀ e, p.2 = .error e → e.isCancelled = false →
    ∃ e', (g.sample steps s).1 = .failure e'
      ∧ (g.Blames steps s e' ∨ e' = .cancelled ∧ (g.finalRun steps s).stopped = true)
  /-- If the call answers, then the count of a site is the number of its units that
  succeeded. -/
  count : ∀ answer, (g.sample steps s).1 = .value answer → ∀ y,
    ((g.sample steps s).2.1.counts.get? y).getD 0
      = (g.ledger steps s).countP fun p => p.2.isOk && decide (p.1.site = y)
  /-- If it answers with some site, then every step has been completed, or its unit said
  that it was cancelled. -/
  spent : ∀ answer, (g.sample steps s).1 = .value answer → answer ≠ [] →
    (g.sample steps s).2.1.counts.values.sum
      + (g.ledger steps s).countP (fun p => !isUncancelled p.2) = steps

/-- A closed run has no answer, and says why. -/
theorem answer_of_closed {r : Run} (h : r.isOpen = false) :
    ∃ e, g.answer r = .error e
      ∧ (r.failure = some e ∨ e = .cancelled ∧ r.stopped = true) := by
  unfold Sampler.answer Run.result
  cases hf : r.failure with
  | some e => exact ⟨e, rfl, .inl rfl⟩
  | none =>
    have hstopped : r.stopped = true := by
      rw [Run.isOpen, hf] at h
      simpa using h
    rw [hstopped]
    exact ⟨.cancelled, rfl, .inr ⟨rfl, rfl⟩⟩

/-- **A call whose run was closed fails.** -/
theorem failure_of_closed {t : Trace} {s' : Shared} (h : g.Begins s t s')
    (hclosed : (g.finalRun steps s).isOpen = false) :
    ∃ e, (g.sample steps s).1 = .failure e
      ∧ (g.Blames steps s e ∨ e = .cancelled ∧ (g.finalRun steps s).stopped = true) := by
  have hrun : g.lastRun steps t s' = g.finalRun steps s := lastRun_eq_finalRun h
  rw [← hrun] at hclosed ⊢
  obtain ⟨e, he, hwhy⟩ := answer_of_closed (g := g) hclosed
  refine ⟨e, ?_, hwhy.imp_left (lastRun_blames h)⟩
  rw [sample_of_begins h]
  show Outcome.ofExcept (g.answer (g.lastRun steps t s')) = _
  rw [he]
  rfl

/-- **The ledger accounts for an open run.** -/
theorem books_finalRun (hopen : (g.finalRun steps s).isOpen = true) :
    (g.stage steps s 0).Books (g.finalRun steps s) (g.ledger steps s) :=
  Job.books_drive (.declared g.settings.dependencies) (g.isAligned_firstRun steps _ _) hopen

/-- Every unit that did not succeed says that it was cancelled. -/
theorem countP_dropped {r r' : Run} {log : List (WorkUnit × Except Error Trace)}
    (h : r.Books r' log) :
    (log.countP fun p => p.2.isOk) + (log.countP fun p => !isUncancelled p.2)
      = log.length := by
  have hsame : (log.countP fun p => !isUncancelled p.2)
      = log.countP fun p => ¬ p.2.isOk = true := by
    refine List.countP_congr fun p hp => ?_
    cases hres : p.2 with
    | ok nodes => simp [isUncancelled, Except.isOk, Except.toBool]
    | error e => simp [isUncancelled, Except.isOk, Except.toBool, h.dropped p hp e hres]
  rw [hsame]
  exact (List.length_eq_countP_add_countP _).symm

/-- **A call reports every error of its units but the cancellations**, and takes every
step for which no unit says that it was cancelled. -/
theorem reports (g : Sampler σ) (steps : Nat) {s s' : Shared} {t : Trace}
    (h : g.Begins s t s') : g.Reports steps s where
  handled := g.map_fst_ledger steps s
  fails p hp e he hc := by
    refine failure_of_closed h (Bool.eq_false_iff.mpr fun hopen => ?_)
    have hcancelled := (books_finalRun hopen).dropped p hp e he
    exact absurd (hcancelled.symm.trans hc) nofun
  count answer hanswer y := by
    have got := answers_of_sample hanswer
    rw [got.counts]
    refine ((books_finalRun got.opened).count y).trans ?_
    rw [show (g.stage steps s 0).schedule.count y = 0 from Schedule.count_create _ _ _ y,
      Nat.zero_add]
  spent answer hanswer hsome := by
    have got := answers_of_sample hanswer
    have books := books_finalRun got.opened
    have htotal : (g.finalRun steps s).schedule.total
        = (g.ledger steps s).countP fun p => p.2.isOk := by
      rw [books.total, show (g.stage steps s 0).schedule.total = 0 from
        Schedule.total_create _ _ _, Nat.zero_add]
    rw [got.counts, show (g.finalRun steps s).schedule.counts.values.sum
        = (g.finalRun steps s).schedule.total from rfl, htotal, countP_dropped books,
      ← List.length_map Prod.fst, g.map_fst_ledger steps s, got.length_started hsome]

/-- A sampler whose first unit ends in a given error. -/
def forsaking (e : Error) : Sampler Unit :=
  .small (fun i c =>
    if i.index = 1 then .finish (.failure e) () else sprouting.through c) []

theorem reports_forsaking : (∃ t s', (forsaking .serialization).Begins .small t s')
    ∧ (forsaking .serialization).Reports 3 .small
    ∧ ∃ p ∈ (forsaking .serialization).ledger 3 .small, p.2.isOk = false
      ∧ isUncancelled p.2 = true := by
  have hbegins : (forsaking .serialization).Begins .small
      ((forsaking .serialization).priorPass .small).2.1
      ((forsaking .serialization).priorPass .small).2.2 :=
    ⟨Prod.ext (by decide +kernel :
      ((forsaking .serialization).priorPass .small).1 = .value ()) rfl, by decide +kernel⟩
  refine ⟨⟨_, _, hbegins⟩, reports _ 3 hbegins, ?_⟩
  have hany : (((forsaking .serialization).ledger 3 .small).map Prod.snd).any
      (fun result => !result.isOk && isUncancelled result) = true := by decide +kernel
  obtain ⟨result, hmem, hresult⟩ := List.any_eq_true.mp hany
  obtain ⟨p, hp, rfl⟩ := List.mem_map.mp hmem
  rw [Bool.and_eq_true, Bool.not_eq_true'] at hresult
  exact ⟨p, hp, hresult⟩

/-- **A call that swallows an error**: its only unit ends in it, the sampler has not been
cancelled, and still the call answers, without a completed step. -/
structure Swallows (g : Sampler Unit) (e : Error) : Prop where
  ended : (g.ledger 1 .small).map (fun p => (p.1.site, p.2.map fun _ => ())) = [("x", .error e)]
  uncancelled : (g.sample 1 .small).2.2.isCancelled g.token = false
  answered : (g.sample 1 .small).1.map (List.map Prod.fst) = .value ["x"]
  completed : (g.sample 1 .small).2.1.phase = .completed
  unspent : (g.sample 1 .small).2.1.counts.entries = [("x", 0)]

/-- **A cancellation that nobody asked for is swallowed**, bare or inside the failure of a
site. -/
theorem forsaking_swallows : (forsaking .cancelled).Swallows .cancelled
    ∧ (forsaking (.siteFailed "z" .cancelled)).Swallows (.siteFailed "z" .cancelled) := by
  refine ⟨⟨?_, ?_, ?_, ?_, ?_⟩, ⟨?_, ?_, ?_, ?_, ?_⟩⟩ <;> decide +kernel

end Sampler

end Resampler
