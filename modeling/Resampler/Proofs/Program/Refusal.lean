import Resampler.Proofs.Chain.Regime

/-!
# Who refuses a draw

A context whose token is cancelled refuses to draw: it fails with a cancellation, and its chain
is not asked. From outside, that is the only reason for such a failure. Interpreters, stores
and distributions fail in ways of their own, which are told as such, and what an interpreter
is told it tells on; so by itself no chain answers with a cancellation
(`Chain.uncancelled_draw`).
-/

namespace Resampler

/-! ## What chains answer by themselves -/

/-- **A reply that is no cancellation.** -/
def Reply.Uncancelled (reply : Reply) : Prop := ∀ e, reply = .failure e → e.isCancelled = false

namespace Reply

theorem uncancelled_value (v : Json) : Uncancelled (.value v) := nofun

theorem uncancelled_failure {e : Error} (h : e.isCancelled = false) :
    Uncancelled (.failure e) := by
  rintro _ ⟨⟩
  exact h

theorem uncancelled_ask (site : Site) (k : RandomKey) : Uncancelled (site.ask k) := by
  unfold Site.ask
  cases site.sample k with
  | value v => exact uncancelled_value v
  | failure cause => exact uncancelled_failure rfl
  | panic payload => exact nofun

end Reply

open Reply

/-- A store fails with its own errors. -/
theorem Store.isCancelled_get? {st : Store} {number : Nat} {e : Error}
    (h : st.get? number = .error e) : e.isCancelled = false := by
  unfold get? at h
  split at h
  · cases h
    rfl
  · cases h

theorem Shared.isCancelled_keep {s : Shared} {store number : Nat} {text : String} {e : Error}
    (h : s.keep store number text = .error e) : e.isCancelled = false := by
  unfold keep Store.insertIfAbsent at h
  split at h
  · cases h
  · split at h <;> cases h
  · cases h
    rfl
  · cases h

namespace Handler

variable {id : Nat} {next : Answerer} {site : Site} {key : Option RandomKey} {s : Shared}

theorem uncancelled_drawMemo (cache : Nat) (hnext : ∀ site key s, Uncancelled (next site key s).1) :
    Uncancelled (drawMemo cache next site key s).1 := by
  unfold drawMemo
  dsimp only
  split
  · exact hnext _ _ _
  · exact uncancelled_failure rfl
  · split
    · exact uncancelled_value _
    · split
      · exact uncancelled_value _
      · exact hnext _ _ _

theorem uncancelled_drawPersistent (store : Nat)
    (hnext : ∀ site key s, Uncancelled (next site key s).1) :
    Uncancelled (drawPersistent store next site key s).1 := by
  unfold drawPersistent
  dsimp only
  split
  · exact hnext _ _ _
  · exact uncancelled_failure rfl
  · split
    · next e he => exact uncancelled_failure (Store.isCancelled_get? he)
    · split
      · exact uncancelled_value _
      · exact uncancelled_failure rfl
    · split
      · split
        · exact uncancelled_value _
        · next e he => exact uncancelled_failure (Shared.isCancelled_keep he)
      · exact hnext _ _ _

/-- **No interpreter answers with a cancellation by itself.** -/
theorem uncancelled_draw (id : Nat) (h : Handler)
    (hnext : ∀ site key s, Uncancelled (next site key s).1) (site : Site)
    (key : Option RandomKey) (s : Shared) : Uncancelled (h.draw id next site key s).1 := by
  cases h with
  | standard detectReuse =>
    show Uncancelled (drawStandard id detectReuse site key s).1
    unfold drawStandard
    split
    · exact uncancelled_value _
    · exact uncancelled_failure rfl
    · split
      · split
        · exact uncancelled_failure rfl
        · exact uncancelled_ask _ _
      · exact uncancelled_ask _ _
  | thread force =>
    show Uncancelled (drawThread id force next site key s).1
    unfold drawThread
    split <;> exact hnext _ _ _
  | memo cache => exact uncancelled_drawMemo cache hnext
  | persistent store => exact uncancelled_drawPersistent store hnext
  | recorder =>
    show Uncancelled (drawRecorder id next site key s).1
    unfold drawRecorder
    split
    · exact uncancelled_failure rfl
    · split
      · split
        · exact uncancelled_failure rfl
        · exact uncancelled_value _
      · exact hnext _ _ _
  | condition data =>
    show Uncancelled (drawCondition data next site key s).1
    unfold drawCondition
    split
    · exact uncancelled_value _
    · exact hnext _ _ _
  | replay values =>
    show Uncancelled (drawReplay values site key s).1
    unfold drawReplay
    split
    · exact uncancelled_value _
    · exact uncancelled_value _
    · exact uncancelled_failure rfl
  | constant v => exact uncancelled_value v
  | substitute d => exact hnext _ _ _
  | spy => exact hnext _ _ _
  | rekey key' => exact hnext _ _ _

end Handler

/-- **No chain answers with a cancellation**: it takes a context to do so. -/
theorem Chain.uncancelled_draw (c : Chain) (site : Site) (key : Option RandomKey) (s : Shared) :
    Uncancelled (c.draw site key s).1 := by
  induction c generalizing site key s with
  | empty =>
    show Uncancelled site.unanswered
    unfold Site.unanswered
    split
    · exact uncancelled_value _
    · exact uncancelled_failure rfl
  | link id h rest ih => exact h.uncancelled_draw id ih site key s
  | branch id selects alternate rest iha ihr =>
    show Uncancelled (if _ then _ else _ : Reply × Shared).1
    split
    · exact iha site key s
    · exact ihr site key s

/-! ## What contexts refuse -/

/-- **When a context refuses a draw**, if `stopped` says whether its token is cancelled. -/
structure Context.RefusesIf (stopped : Prop) (c : Context) (site : Site) (s : Shared) : Prop where
  /-- The draw is answered with a cancellation just if the token is cancelled, or the chain
  answers so. -/
  answers : (c.draw site s).1 = .failure .cancelled
    ↔ stopped ∨ (c.chain.draw site none s).1 = .failure .cancelled
  /-- Just if the token is cancelled, or the chain does so, everything is left as it was, too. -/
  unchanged : c.draw site s = (.failure .cancelled, s)
    ↔ stopped ∨ c.chain.draw site none s = (.failure .cancelled, s)
  /-- Otherwise it is the chain that answers. -/
  goes : ¬ stopped → c.draw site s = c.chain.draw site none s
  /-- No chain answers with a cancellation by itself. -/
  chain : (c.chain.draw site none s).1 ≠ .failure .cancelled

theorem Context.refusesIf {stopped : Prop} {c : Context} {s : Shared}
    (h : s.isCancelled c.token = true ↔ stopped) (site : Site) : c.RefusesIf stopped site s := by
  have hchain : (c.chain.draw site none s).1 ≠ .failure .cancelled := fun hc =>
    Bool.noConfusion (c.chain.uncancelled_draw site none s _ hc)
  by_cases hc : s.isCancelled c.token = true
  · have hdraw : c.draw site s = (.failure .cancelled, s) := if_pos hc
    rw [h] at hc
    exact ⟨iff_of_true (by rw [hdraw]) (.inl hc), iff_of_true hdraw (.inl hc),
      fun hgoes => absurd hc hgoes, hchain⟩
  · have hdraw : c.draw site s = c.chain.draw site none s := if_neg hc
    rw [h] at hc
    exact ⟨by rw [hdraw, or_iff_right hc], by rw [hdraw, or_iff_right hc], fun _ => hdraw, hchain⟩

end Resampler
