import Resampler.Program.Basic

/-!
# Transcripts

The transcript of an execution lists what the program asked for and what it
was answered, in order, over all the contexts it went through. It is how an
execution looks from the side of the program, where the state that it leaves
is how it looks from the side of the interpreters.

Which requests a program may make at all is said along its tree, by
`Program.Within`. The two come together in `Within.run`: a condition on the
state that every admissible request keeps is kept by the whole execution, and
what holds of each answer holds all along the transcript.

A program that stops at its first failing draw is one whose transcripts hold
no failing answer but at the end. `Within.run_of_stops` is the same rule for
such programs; the requests need to keep the condition only if they are
answered with a value.
-/

namespace Resampler

namespace Program

variable {σ : Type}

/-- **What an execution asked for and was answered**, the first first. -/
def transcript : Program σ → Shared → List (Site × Reply)
  | .finish _ _, _ => []
  | .draw context site next, s =>
    (site, (context.draw site s).1)
      :: (next (context.draw site s).1).transcript (context.draw site s).2
  | .scope context layer body next, s =>
    if context.admits s layer then
      (body (context.inside layer)).transcript (s.install layer.id)
        ++ (next (.ok ((body (context.inside layer)).run (s.install layer.id)).1)).transcript
          (((body (context.inside layer)).run (s.install layer.id)).2.release layer.id)
    else (next (.error .reentrant)).transcript s
  | .cancel token next, s => next.transcript (s.cancel token)

theorem transcript_scope_of_admits {context : Context} {layer : Layer} {s : Shared}
    (h : context.admits s layer = true) (body : Context → Program σ)
    (next : Except Error (Outcome Error Unit × σ) → Program σ) :
    (scope context layer body next).transcript s
      = (body (context.inside layer)).transcript (s.install layer.id)
        ++ (next (.ok ((body (context.inside layer)).run (s.install layer.id)).1)).transcript
          (((body (context.inside layer)).run (s.install layer.id)).2.release layer.id) := by
  rw [transcript, if_pos h]

theorem transcript_scope_of_not_admits {context : Context} {layer : Layer} {s : Shared}
    (h : ¬ context.admits s layer = true) (body : Context → Program σ)
    (next : Except Error (Outcome Error Unit × σ) → Program σ) :
    (scope context layer body next).transcript s
      = (next (.error .reentrant)).transcript s := by
  rw [transcript, if_neg h]

/-- **A program makes only admissible requests**, whatever it is answered. -/
def Within (admissible : Context → Site → Prop) : Program σ → Prop
  | .finish _ _ => True
  | .draw context site next =>
    admissible context site ∧ ∀ reply, (next reply).Within admissible
  | .scope context layer body next =>
    (body (context.inside layer)).Within admissible
      ∧ ∀ ending, (next ending).Within admissible
  | .cancel _ next => next.Within admissible

/-- **A program stops at its first failing draw**: it asks for nothing after an
answer that is no value. -/
def Stops (p : Program σ) : Prop :=
  ∀ s, ∀ a ∈ (p.transcript s).dropLast, a.2.isValue = true

/-- A condition on the state that scopes and cancellations leave alone. -/
structure IsQuiet (I : Shared → Prop) : Prop where
  install : ∀ {s} (id : Nat), I s → I (s.install id)
  release : ∀ {s} (id : Nat), I s → I (s.release id)
  cancel : ∀ {s} (t : Token), I s → I (s.cancel t)

variable {admissible : Context → Site → Prop}

/-- **What every admissible request keeps, an execution keeps**, and what holds
of the answers to such requests holds along the transcript. -/
theorem Within.run {I : Shared → Prop} {P : Site → Reply → Prop} (hI : IsQuiet I)
    (hdraw : ∀ {context site s}, admissible context site → I s →
      I (context.draw site s).2 ∧ P site (context.draw site s).1)
    {p : Program σ} (hp : p.Within admissible) {s : Shared} (hs : I s) :
    I (p.run s).2 ∧ ∀ a ∈ p.transcript s, P a.1 a.2 := by
  induction p generalizing s with
  | finish outcome locals => exact ⟨hs, fun a ha => nomatch ha⟩
  | draw context site next ih =>
    have hd := hdraw hp.1 hs
    have hn := ih (context.draw site s).1 (hp.2 _) hd.1
    refine ⟨hn.1, fun a ha => ?_⟩
    rcases List.mem_cons.mp ha with rfl | ha
    · exact hd.2
    · exact hn.2 a ha
  | scope context layer body next ihb ihn =>
    by_cases ha : context.admits s layer = true
    · rw [run_scope_of_admits ha, transcript_scope_of_admits ha]
      -- What follows goes on in the state in which the scope has been closed again.
      have hb := ihb _ hp.1 (hI.install layer.id hs)
      have hn := ihn (.ok ((body (context.inside layer)).run (s.install layer.id)).1)
        (hp.2 _) (hI.release layer.id hb.1)
      refine ⟨hn.1, fun a ha => ?_⟩
      rcases List.mem_append.mp ha with ha | ha
      · exact hb.2 a ha
      · exact hn.2 a ha
    · rw [run_scope_of_not_admits ha, transcript_scope_of_not_admits ha]
      exact ihn _ (hp.2 _) hs
  | cancel token next ih => exact ih hp (hI.cancel token hs)

/-- An execution that asks for nothing keeps what scopes and cancellations
leave alone. -/
theorem run_of_transcript_nil {K : Shared → Prop} (hK : IsQuiet K) {p : Program σ}
    {s : Shared} (ht : p.transcript s = []) (hs : K s) : K (p.run s).2 := by
  induction p generalizing s with
  | finish outcome locals => exact hs
  | draw context site next ih => cases ht
  | scope context layer body next ihb ihn =>
    by_cases ha : context.admits s layer = true
    · rw [transcript_scope_of_admits ha, List.append_eq_nil_iff] at ht
      rw [run_scope_of_admits ha]
      exact ihn _ ht.2 (hK.release layer.id (ihb _ ht.1 (hK.install layer.id hs)))
    · rw [transcript_scope_of_not_admits ha] at ht
      rw [run_scope_of_not_admits ha]
      exact ihn _ ht hs
  | cancel token next ih => exact ih ht (hK.cancel token hs)

theorem isValue_of_dropLast_append {l l' : List (Site × Reply)}
    (h : ∀ a ∈ (l ++ l').dropLast, a.2.isValue = true) :
    (l' = [] → ∀ a ∈ l.dropLast, a.2.isValue = true)
      ∧ (l' ≠ [] → (∀ a ∈ l, a.2.isValue = true)
        ∧ ∀ a ∈ l'.dropLast, a.2.isValue = true) := by
  refine ⟨fun hn => ?_, fun hn => ?_⟩
  · rw [hn, List.append_nil] at h
    exact h
  · rw [List.dropLast_append_of_ne_nil hn] at h
    exact ⟨fun a ha => h a (List.mem_append_left _ ha),
      fun a ha => h a (List.mem_append_right _ ha)⟩

/-- **What requests keep that are answered with values**, an execution keeps up
to its first failing draw. If it stops there, what a failing draw leaves is
what holds at the end. -/
theorem Within.run_of_stops {J K : Shared → Prop} (hJ : IsQuiet J) (hK : IsQuiet K)
    (hJK : ∀ {s}, J s → K s)
    (hdraw : ∀ {context site s}, admissible context site → J s →
      K (context.draw site s).2
        ∧ ((context.draw site s).1.isValue = true → J (context.draw site s).2))
    {p : Program σ} (hp : p.Within admissible) {s : Shared}
    (hstop : ∀ a ∈ (p.transcript s).dropLast, a.2.isValue = true) (hs : J s) :
    K (p.run s).2 ∧ ((∀ a ∈ p.transcript s, a.2.isValue = true) → J (p.run s).2) := by
  induction p generalizing s with
  | finish outcome locals => exact ⟨hJK hs, fun _ => hs⟩
  | draw context site next ih =>
    have hd := hdraw hp.1 hs
    have happ : ∀ a ∈ ([(site, (context.draw site s).1)]
        ++ (next (context.draw site s).1).transcript (context.draw site s).2).dropLast,
        a.2.isValue = true := hstop
    obtain ⟨-, hcons⟩ := isValue_of_dropLast_append happ
    by_cases hn : (next (context.draw site s).1).transcript (context.draw site s).2 = []
    · rw [run_draw]
      refine ⟨run_of_transcript_nil hK hn hd.1, fun hall => ?_⟩
      exact run_of_transcript_nil hJ hn (hd.2 (hall _ List.mem_cons_self))
    · obtain ⟨hhead, htail⟩ := hcons hn
      have hj := hd.2 (hhead _ List.mem_cons_self)
      obtain ⟨hk, hall⟩ := ih _ (hp.2 _) htail hj
      exact ⟨hk, fun h => hall fun a ha => h a (List.mem_cons_of_mem _ ha)⟩
  | scope context layer body next ihb ihn =>
    by_cases ha : context.admits s layer = true
    · rw [transcript_scope_of_admits ha] at hstop ⊢
      rw [run_scope_of_admits ha]
      obtain ⟨hnil, hcons⟩ := isValue_of_dropLast_append hstop
      by_cases hn : (next (.ok ((body (context.inside layer)).run
          (s.install layer.id)).1)).transcript
          (((body (context.inside layer)).run (s.install layer.id)).2.release layer.id) = []
      · -- Nothing is asked for after the scope, so its last draw may be the failing one.
        obtain ⟨hk, hall⟩ := ihb _ hp.1 (hnil hn) (hJ.install layer.id hs)
        refine ⟨run_of_transcript_nil hK hn (hK.release layer.id hk), fun h => ?_⟩
        have hj := hall fun a ha => h a (List.mem_append_left _ ha)
        exact run_of_transcript_nil hJ hn (hJ.release layer.id hj)
      · -- Something is, so all draws inside were answered with values.
        obtain ⟨hbody, htail⟩ := hcons hn
        obtain ⟨-, hall⟩ := ihb _ hp.1
          (fun a ha => hbody a (List.dropLast_subset _ ha)) (hJ.install layer.id hs)
        obtain ⟨hk, hrest⟩ := ihn _ (hp.2 _) htail (hJ.release layer.id (hall hbody))
        exact ⟨hk, fun h => hrest fun a ha => h a (List.mem_append_right _ ha)⟩
    · rw [transcript_scope_of_not_admits ha] at hstop ⊢
      rw [run_scope_of_not_admits ha]
      exact ihn _ (hp.2 _) hstop hs
  | cancel token next ih => exact ih hp hstop (hJ.cancel token hs)

/-! ## Going on only with a value -/

/-- **Draw a site and go on with its value**; a failing draw ends the program. -/
def ask (c : Context) (site : Site) (next : Json → Program Unit) : Program Unit :=
  .draw c site fun
    | .value v => next v
    | .failure e => .finish (.failure e) ()
    | .panic payload => .finish (.panic payload) ()

/-- A program that has succeeded. -/
def done : Program Unit := .finish (.value ()) ()

theorem within_ask {c : Context} {site : Site} {next : Json → Program Unit}
    (h : admissible c site) (hnext : ∀ v, (next v).Within admissible) :
    (ask c site next).Within admissible := by
  refine ⟨h, fun reply => ?_⟩
  cases reply with
  | value v => exact hnext v
  | failure e => trivial
  | panic payload => trivial

theorem stops_done : done.Stops := by
  intro s a ha
  cases ha

/-- A program made of such draws stops at the first that fails. -/
theorem stops_ask {c : Context} {site : Site} {next : Json → Program Unit}
    (hnext : ∀ v, (next v).Stops) : (ask c site next).Stops := by
  intro s
  show ∀ a ∈ ((site, (c.draw site s).1) :: transcript _ _).dropLast, _
  cases hr : (c.draw site s).1 with
  | value v =>
    intro a ha
    dsimp only at ha
    cases ht : (next v).transcript (c.draw site s).2 with
    | nil =>
      rw [ht] at ha
      cases ha
    | cons b l =>
      rw [ht, List.dropLast_cons_cons, List.mem_cons] at ha
      rcases ha with rfl | ha
      · rfl
      · exact hnext v (c.draw site s).2 a (ht ▸ ha)
  | failure e =>
    intro a ha
    cases ha
  | panic payload =>
    intro a ha
    cases ha

/-- **Run a program in a scope** and end as it ends. -/
def under (c : Context) (layer : Layer) (body : Context → Program Unit) : Program Unit :=
  .scope c layer body fun
    | .ok ending => .finish ending.1 ()
    | .error e => .finish (.failure e) ()

theorem within_under {c : Context} {layer : Layer} {body : Context → Program Unit}
    (h : (body (c.inside layer)).Within admissible) :
    (under c layer body).Within admissible := by
  refine ⟨h, fun ending => ?_⟩
  cases ending <;> trivial

/-- In a scope a program stops at the draw at which it stops without. -/
theorem stops_under {c : Context} {layer : Layer} {body : Context → Program Unit}
    (h : (body (c.inside layer)).Stops) : (under c layer body).Stops := by
  intro s
  unfold under
  by_cases ha : c.admits s layer = true
  · rw [transcript_scope_of_admits ha]
    show ∀ a ∈ (_ ++ []).dropLast, _
    rw [List.append_nil]
    exact h _
  · rw [transcript_scope_of_not_admits ha]
    exact fun a h => nomatch h

end Program

end Resampler
