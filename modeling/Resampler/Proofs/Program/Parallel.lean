import Resampler.Proofs.Chain.Pairing
import Resampler.Proofs.Program.Blind

/-!
# One program in two worlds

Two programs that are alike, run in states beside each other, end alike and leave states
beside each other: each draw is made through chains that are built alike
(`Program.Alike.agree`). The bases need to answer alike only what they are asked for in the
first of the two executions, which `Program.Along` follows.
-/

namespace Resampler

variable {σ : Type}

/-- **What holds of all chains that the draws of an execution come to**, of the site, the
key and the state with which they do. -/
def Program.Along (P : Chain → Site → Option RandomKey → Shared → Prop) :
    Program σ → Shared → Prop
  | .finish _ _, _ => True
  | .draw c site next, s =>
    (s.isCancelled c.token = false → c.chain.Throughout P site none s)
      ∧ (next (c.draw site s).1).Along P (c.draw site s).2
  | .scope c layer body next, s =>
    if c.admits s layer then
      (body (c.inside layer)).Along P (s.install layer.id)
        ∧ (next (.ok ((body (c.inside layer)).run (s.install layer.id)).1)).Along P
          (((body (c.inside layer)).run (s.install layer.id)).2.release layer.id)
    else (next (.error .reentrant)).Along P s
  | .cancel token next, s => next.Along P (s.cancel token)

namespace Pairing

variable {W : Pairing} {P : Chain → Site → Option RandomKey → Shared → Prop}
variable {base base' : Chain} {s t : Shared}

/-- **Contexts that correspond**: their chains are built alike over the two bases. -/
structure SameContext (W : Pairing) (base base' : Chain) (c c' : Context) : Prop where
  chain : W.Twins base base' c.chain c'.chain
  token : W.SameToken c.token c'.token

/-- **What a program has of its own corresponds to itself.** -/
structure Includes (W : Pairing) (B : Belongings) : Prop where
  numbers : ∀ {a}, B.numbers a → W.instances a a
  kinds : ∀ {h}, B.kinds h → W.Suits h
  tokens : ∀ {a}, B.tokens a → W.tokens a a

variable {B : Belongings}

/-- A chain of its own is built like itself. -/
theorem Includes.twins (hB : W.Includes B) (base base' : Chain) {c : Chain}
    (hc : B.HasChain c) : W.Twins base base' c c := by
  induction c with
  | empty => exact .empty
  | link id h rest ih => exact .link (hB.numbers hc.1) (hB.kinds hc.2.1) (ih hc.2.2)
  | branch id selects alternate rest iha ihr =>
    exact .branch (hB.numbers hc.1) (iha hc.2.1) (ihr hc.2.2)

theorem Includes.sameToken (hB : W.Includes B) {τ : Token} (hτ : B.HasToken τ) :
    W.SameToken τ τ :=
  List.forall₂_same.mpr fun id hid => hB.tokens (hτ id hid)

/-- The number of an instance of its own corresponds to itself. -/
theorem Includes.instances_id (hB : W.Includes B) {layer : Layer} (hl : B.HasLayer layer) :
    W.instances layer.id layer.id := by
  cases layer with
  | plain id h => exact hB.numbers hl.1
  | branch id selects alternate => exact hB.numbers hl.1

/-- **A program cannot tell corresponding contexts apart.** -/
theorem Includes.relates (hB : W.Includes B) (base base' : Chain) :
    B.Relates (W.SameContext base base') W.SameToken where
  contexts hc := ⟨hB.twins base base' hc.1, hB.sameToken hc.2⟩
  tokens hτ := hB.sameToken hτ
  token h := h.token
  inside {c c' layer} h hl := by
    refine ⟨?_, h.token⟩
    cases layer with
    | plain id handler => exact .link (hB.numbers hl.1) (hB.kinds hl.2) h.chain
    | branch id selects alternate =>
      exact .branch (hB.numbers hl.1) (hB.twins base base' hl.2) h.chain

/-- A draw through corresponding contexts is answered alike. -/
theorem SameContext.agree (hbase : W.Bases P base base') {c c' : Context}
    (h : W.SameContext base base' c c') {site : Site}
    (hP : s.isCancelled c.token = false → c.chain.Throughout P site none s)
    (hs : W.Beside s t) : W.Agree (c.draw site s) (c'.draw site t) := by
  unfold Context.draw
  rw [hs.isCancelled h.token]
  split
  · exact ⟨rfl, hs⟩
  · next hlive => exact h.chain.agree hbase (hP (Bool.eq_false_iff.mpr hlive)) hs

/-- Corresponding contexts admit an instance of the program's own alike. -/
theorem SameContext.admits (hbase : W.Bases P base base') (hB : W.Includes B) {c c' : Context}
    (h : W.SameContext base base' c c') (hs : W.Beside s t) {layer : Layer}
    (hl : B.HasLayer layer) : c'.admits t layer = c.admits s layer := by
  have hid := hB.instances_id hl
  have hin := h.chain.mem_ids_iff hbase hid
  have hopen : layer.id ∈ t.installed ↔ layer.id ∈ s.installed := by
    rw [← List.count_pos_iff, ← List.count_pos_iff, (hs.cells hid).installed]
  unfold Context.admits Chain.contains
  simp only [hin, hopen]

/-- **Alike programs end alike** in states beside each other, and leave such states. -/
theorem agree_run (hbase : W.Bases P base base') (hB : W.Includes B) {p p' : Program σ}
    (h : p.Alike (W.SameContext base base') W.SameToken B.HasLayer p') (hP : p.Along P s)
    (hs : W.Beside s t) : W.Agree (p.run s) (p'.run t) := by
  induction h generalizing s t with
  | finish outcome locals => exact ⟨rfl, hs⟩
  | @draw c c' site next next' context go ih =>
    have hdraw := context.agree hbase hP.1 hs
    rw [Program.run_draw, Program.run_draw, hdraw.same]
    exact ih _ hP.2 hdraw.beside
  | @scope c c' layer body body' next next' context own inner go ihb ihn =>
    have hid := hB.instances_id own
    have hadmits := context.admits hbase hB hs own
    unfold Program.Along at hP
    by_cases ha : c.admits s layer = true
    · rw [if_pos ha] at hP
      have hbody := ihb hP.1 (hs.install hid)
      rw [Program.run_scope_of_admits ha, Program.run_scope_of_admits (hadmits.trans ha),
        hbody.same]
      exact ihn _ hP.2 (hbody.beside.release hid)
    · rw [if_neg ha] at hP
      rw [Program.run_scope_of_not_admits ha,
        Program.run_scope_of_not_admits (by rwa [hadmits])]
      exact ihn _ hP hs
  | cancel token go ih => exact ih hP (hs.cancel token)

end Pairing

end Resampler
