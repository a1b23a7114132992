import Resampler.Proofs.Program.Blind

/-!
# Tokens while a program runs

A draw cancels no token and gives out no number, so while a program runs tokens are
cancelled by its own requests only, and those that are cancelled stay so
(`Program.isCancelled_run`). A program that does not look into what it is handed has no
tokens but its own and the one that it is handed. Then every token that it cancels has been
made before (`Model.IsBlind.below_run`), and one that is made afterwards is not cancelled.
-/

namespace Resampler

variable {σ : Type}

/-! ## Tokens that are cancelled -/

/-- A token without ancestors is cancelled by itself only. -/
theorem Shared.isCancelled_ofId (s : Shared) (id : Nat) :
    s.isCancelled (.ofId id) = decide (id ∈ s.cancelled) :=
  Bool.or_false _

namespace Token

/-- **A token that descends from another** is cancelled when that is. -/
theorem isCancelled_of_lineage {τ τ' : Token} (h : ∀ id ∈ τ.lineage, id ∈ τ'.lineage)
    {cancelled : List Nat} (hc : τ.isCancelled cancelled = true) :
    τ'.isCancelled cancelled = true := by
  obtain ⟨id, hid, hin⟩ := (isCancelled_iff τ cancelled).mp hc
  exact (isCancelled_iff τ' cancelled).mpr ⟨id, h id hid, hin⟩

/-- What has been cancelled stays so when more is. -/
theorem isCancelled_of_subset {τ : Token} {cancelled cancelled' : List Nat}
    (h : ∀ id ∈ cancelled, id ∈ cancelled') (hc : τ.isCancelled cancelled = true) :
    τ.isCancelled cancelled' = true := by
  obtain ⟨id, hid, hin⟩ := (isCancelled_iff τ cancelled).mp hc
  exact (isCancelled_iff τ cancelled').mpr ⟨id, hid, h id hin⟩

end Token

namespace Program

/-- A program gives out no number. -/
theorem next_run (p : Program σ) (s : Shared) : (p.run s).2.next = s.next := by
  induction p generalizing s with
  | finish outcome locals => rfl
  | draw c site next ih =>
    rw [run_draw, ih]
    exact (c.sameNumbers_draw site s).next
  | scope c layer body next ihb ihn =>
    by_cases ha : c.admits s layer = true
    · rw [run_scope_of_admits ha, ihn]
      exact ihb _ (s.install layer.id)
    · rw [run_scope_of_not_admits ha, ihn]
  | cancel token next ih => exact ih (s.cancel token)

/-- A token that is cancelled stays so. -/
theorem isCancelled_run (p : Program σ) {τ : Token} {s : Shared}
    (h : s.isCancelled τ = true) : (p.run s).2.isCancelled τ = true := by
  induction p generalizing s with
  | finish outcome locals => exact h
  | draw c site next ih =>
    rw [run_draw]
    refine ih _ ?_
    unfold Shared.isCancelled
    rw [(c.sameNumbers_draw _ _).cancelled]
    exact h
  | scope c layer body next ihb ihn =>
    by_cases ha : c.admits s layer = true
    · rw [run_scope_of_admits ha]
      have hbody := ihb (c.inside layer) (s := s.install layer.id) h
      exact ihn _ hbody
    · rw [run_scope_of_not_admits ha]
      exact ihn _ h
  | cancel token next ih =>
    exact ih (Token.isCancelled_of_subset (fun _ => List.mem_cons_of_mem _) h)

end Program

/-! ## Tokens that have been made -/

/-- **A token whose numbers are below a bound**, as those are that have been made when the
bound is the next number. -/
def Token.IsBelow (n : Nat) (τ : Token) : Prop := ∀ id ∈ τ.lineage, id < n

theorem Token.IsBelow.mono {n m : Nat} {τ : Token} (h : τ.IsBelow n) (hnm : n ≤ m) :
    τ.IsBelow m :=
  fun id hid => Nat.lt_of_lt_of_le (h id hid) hnm

theorem Token.IsBelow.child {n id : Nat} {τ : Token} (h : τ.IsBelow n) (hid : id < n) :
    (τ.child id).IsBelow n :=
  List.forall_mem_cons.mpr ⟨hid, h⟩

/-- **Programs that use tokens below a bound** cancel only such. -/
theorem Program.Alike.below_run {C : Context → Context → Prop} {T : Token → Token → Prop}
    {L : Layer → Prop} {n : Nat} (hT : ∀ {τ τ'}, T τ τ' → τ.IsBelow n) {p p' : Program σ}
    (h : p.Alike C T L p') {s : Shared} (hs : ∀ id ∈ s.cancelled, id < n) :
    ∀ id ∈ (p.run s).2.cancelled, id < n := by
  induction h generalizing s with
  | finish outcome locals => exact hs
  | @draw c c' site next next' context go ih =>
    rw [run_draw]
    refine ih _ ?_
    rw [(c.sameNumbers_draw _ _).cancelled]
    exact hs
  | @scope c c' layer body body' next next' context own inner go ihb ihn =>
    by_cases ha : c.admits s layer = true
    · rw [run_scope_of_admits ha]
      exact ihn _ (ihb (s := s.install layer.id) hs)
    · rw [run_scope_of_not_admits ha]
      exact ihn _ hs
  | cancel token go ih =>
    exact ih (List.forall_mem_cons.mpr ⟨hT token _ List.mem_cons_self, hs⟩)

/-- **A program that does not look into what it is handed** cancels only tokens that have
been made, if its own have been. -/
theorem Model.IsBlind.below_run {B : Belongings} {m : Model σ} {i j n : Nat}
    (h : m.IsBlind B i j) (hB : ∀ id, B.tokens id → id < n) {τ : Token} {c : Context}
    (hτ : τ.IsBelow n) (hc : c.token.IsBelow n) {s : Shared}
    (hs : ∀ id ∈ s.cancelled, id < n) :
    ∀ id ∈ ((m ⟨i, some τ⟩ c).run s).2.cancelled, id < n := by
  have hrelates : B.Relates (fun c _ => c.token.IsBelow n) fun τ _ => τ.IsBelow n :=
    { contexts := fun hc id hid => hB id (hc.2 id hid)
      tokens := fun hτ id hid => hB id (hτ id hid)
      token := id
      inside := fun hc _ => hc }
  have halike : (m ⟨i, some τ⟩ c).Alike (fun c _ => c.token.IsBelow n)
      (fun τ _ => τ.IsBelow n) B.HasLayer (m ⟨j, some τ⟩ c) := h _ _ hrelates hτ hc
  exact halike.below_run id hs

end Resampler
