import Resampler.Proofs.Program.Transcript

/-!
# One program, answered in two ways

A program can be run with its draws answered by something else than the chains
that it draws through (`Program.runBy`). The two executions end alike if each
draw is answered alike in states that are related, and leaves such states
behind.

For a program that stops at its first failing draw it is enough if the relation
holds again after draws that came to a value. A weaker one may hold after a draw
that failed, since nothing is asked for any more.
-/

namespace Resampler

namespace Program

variable {σ : Type}

/-- **Run a program with its draws answered by a function** in the place of the
chains. -/
def runBy (answer : Context → Site → Shared → Reply × Shared) :
    Program σ → Shared → Ending σ × Shared
  | .finish outcome locals, s => ((outcome, locals), s)
  | .draw context site next, s =>
    let (reply, s) := answer context site s
    (next reply).runBy answer s
  | .scope context layer body next, s =>
    if context.admits s layer then
      let (ending, s) := (body (context.inside layer)).runBy answer (s.install layer.id)
      (next (.ok ending)).runBy answer (s.release layer.id)
    else (next (.error .reentrant)).runBy answer s
  | .cancel token next, s => next.runBy answer (s.cancel token)

/-- Running a program is running it by its contexts. -/
theorem runBy_draw (p : Program σ) (s : Shared) : p.runBy Context.draw s = p.run s := by
  induction p generalizing s with
  | finish outcome locals => rfl
  | draw context site next ih => exact ih _ _
  | scope context layer body next ihb ihn =>
    unfold runBy run
    simp only [ihb, ihn]
  | cancel token next ih => exact ih _

/-- **A relation of states that scopes and cancellations leave alone**, between
states in which the same instances are installed. -/
structure IsSteady (R : Shared → Shared → Prop) : Prop where
  installed : ∀ {s t}, R s t → t.installed = s.installed
  install : ∀ {s t} (id : Nat), R s t → R (s.install id) (t.install id)
  release : ∀ {s t} (id : Nat), R s t → R (s.release id) (t.release id)
  cancel : ∀ {s t} (token : Token), R s t → R (s.cancel token) (t.cancel token)

variable {R K : Shared → Shared → Prop} {admissible : Context → Site → Prop}
variable {answer : Context → Site → Shared → Reply × Shared} {s t : Shared}

theorem IsSteady.admits (hR : IsSteady R) (h : R s t) (c : Context) (layer : Layer) :
    c.admits t layer = c.admits s layer := by
  unfold Context.admits
  rw [hR.installed h]

/-- **Two executions that have ended alike**, in states that are related. -/
structure EndsAlike (K : Shared → Shared → Prop) (out out' : Ending σ × Shared) :
    Prop where
  ending : out'.1 = out.1
  state : K out.2 out'.2

/-- An execution that asks for nothing does not depend on who answers. -/
theorem endsAlike_of_transcript_nil (hK : IsSteady K) {p : Program σ}
    (ht : p.transcript s = []) (hs : K s t) : EndsAlike K (p.run s) (p.runBy answer t) := by
  induction p generalizing s t with
  | finish outcome locals => exact ⟨rfl, hs⟩
  | draw context site next ih => cases ht
  | scope context layer body next ihb ihn =>
    by_cases ha : context.admits s layer = true
    · rw [transcript_scope_of_admits ha, List.append_eq_nil_iff] at ht
      have hb := ihb _ ht.1 (hK.install layer.id hs)
      rw [run_scope_of_admits ha, runBy, if_pos ((hK.admits hs _ _).trans ha)]
      have hn := ihn _ ht.2 (hK.release layer.id hb.state)
      dsimp only
      rw [hb.ending]
      exact hn
    · rw [transcript_scope_of_not_admits ha] at ht
      rw [run_scope_of_not_admits ha, runBy, if_neg (by rwa [hK.admits hs])]
      exact ihn _ ht hs
  | cancel token next ih => exact ih ht (hK.cancel token hs)

/-- **A program that stops at its first failing draw ends alike** when its draws
are answered alike, as long as they come to values. -/
theorem Within.endsAlike (hR : IsSteady R) (hK : IsSteady K)
    (hRK : ∀ {s t}, R s t → K s t)
    (hdraw : ∀ {context site s t}, admissible context site → R s t →
      (answer context site t).1 = (context.draw site s).1
        ∧ K (context.draw site s).2 (answer context site t).2
        ∧ ((context.draw site s).1.isValue = true →
          R (context.draw site s).2 (answer context site t).2))
    {p : Program σ} (hp : p.Within admissible)
    (hstop : ∀ a ∈ (p.transcript s).dropLast, a.2.isValue = true) (hs : R s t) :
    EndsAlike K (p.run s) (p.runBy answer t)
      ∧ ((∀ a ∈ p.transcript s, a.2.isValue = true) →
        R (p.run s).2 (p.runBy answer t).2) := by
  induction p generalizing s t with
  | finish outcome locals => exact ⟨⟨rfl, hRK hs⟩, fun _ => hs⟩
  | draw context site next ih =>
    obtain ⟨hreply, hk, hr⟩ := hdraw hp.1 hs
    have happ : ∀ a ∈ ([(site, (context.draw site s).1)]
        ++ (next (context.draw site s).1).transcript (context.draw site s).2).dropLast,
        a.2.isValue = true := hstop
    obtain ⟨-, hcons⟩ := isValue_of_dropLast_append happ
    rw [run_draw, runBy]
    dsimp only
    rw [hreply]
    by_cases hn : (next (context.draw site s).1).transcript (context.draw site s).2 = []
    · refine ⟨endsAlike_of_transcript_nil hK hn hk, fun hall => ?_⟩
      exact (endsAlike_of_transcript_nil hR hn (hr (hall _ List.mem_cons_self))).state
    · obtain ⟨hhead, htail⟩ := hcons hn
      obtain ⟨halike, hall⟩ := ih _ (hp.2 _) htail (hr (hhead _ List.mem_cons_self))
      exact ⟨halike, fun h => hall fun a ha => h a (List.mem_cons_of_mem _ ha)⟩
  | scope context layer body next ihb ihn =>
    by_cases ha : context.admits s layer = true
    · rw [transcript_scope_of_admits ha] at hstop ⊢
      rw [run_scope_of_admits ha, runBy, if_pos ((hR.admits hs _ _).trans ha)]
      obtain ⟨hnil, hcons⟩ := isValue_of_dropLast_append hstop
      dsimp only
      by_cases hn : (next (.ok ((body (context.inside layer)).run
          (s.install layer.id)).1)).transcript
          (((body (context.inside layer)).run (s.install layer.id)).2.release layer.id) = []
      · -- Nothing is asked for after the scope, so its last draw may be the failing one.
        obtain ⟨halike, hall⟩ := ihb _ hp.1 (hnil hn) (hR.install layer.id hs)
        rw [halike.ending]
        refine ⟨endsAlike_of_transcript_nil hK hn (hK.release layer.id halike.state),
          fun h => ?_⟩
        have hr := hall fun a ha => h a (List.mem_append_left _ ha)
        exact (endsAlike_of_transcript_nil hR hn (hR.release layer.id hr)).state
      · -- Something is, so all draws inside were answered with values.
        obtain ⟨hbody, htail⟩ := hcons hn
        obtain ⟨halike, hall⟩ := ihb _ hp.1
          (fun a ha => hbody a (List.dropLast_subset _ ha)) (hR.install layer.id hs)
        rw [halike.ending]
        obtain ⟨hrest, hafter⟩ :=
          ihn _ (hp.2 _) htail (hR.release layer.id (hall hbody))
        exact ⟨hrest, fun h => hafter fun a ha => h a (List.mem_append_right _ ha)⟩
    · rw [transcript_scope_of_not_admits ha] at hstop ⊢
      rw [run_scope_of_not_admits ha, runBy, if_neg (by rwa [hR.admits hs])]
      exact ihn _ (hp.2 _) hstop hs
  | cancel token next ih => exact ih hp hstop (hR.cancel token hs)

end Program

end Resampler
