import Resampler.Proofs.Program.Transcript

/-!
# Programs that only ask

An inquiry asks for one site after the other and goes on with the replies, and
that is all it does. Put through a context it is a program, and what becomes of
it is decided by the replies alone: whatever answers in the same way leads it
to the same end.

In particular an inquiry can be put to a recorded trace. `Inquiry.Replays` says,
without a state or an interpreter, that it finds what it asks for there and
succeeds, and `Inquiry.replay_run` that it does just that over a replay.
-/

namespace Resampler

/-- **A program that only asks**, seen by what it asks for and how it goes on
with the replies. -/
inductive Inquiry (σ : Type) where
  /-- End. -/
  | finish (outcome : Outcome Error Unit) (locals : σ)
  /-- Ask for a value. -/
  | ask (site : Site) (next : Reply → Inquiry σ)

namespace Inquiry

variable {σ : Type}

/-- The program that asks through a context. -/
def through (c : Context) : Inquiry σ → Program σ
  | .finish outcome locals => .finish outcome locals
  | .ask site next => .draw c site fun reply => (next reply).through c

/-- **An inquiry that fails at its first failing draw**: it ends there, and with
a failure. (A program that stops there, `Program.Stops`, may end as it likes.) -/
def FailsFast : Inquiry σ → Prop
  | .finish _ _ => True
  | .ask _ next =>
    (∀ reply, reply.isValue = false →
      ∃ outcome locals, next reply = .finish outcome locals ∧ outcome.isValue = false)
      ∧ ∀ reply, (next reply).FailsFast

/-- Ask for a site and go on with its value; a failing draw ends the inquiry. -/
def need (site : Site) (next : Json → Inquiry Unit) : Inquiry Unit :=
  .ask site fun
    | .value v => next v
    | .failure e => .finish (.failure e) ()
    | .panic payload => .finish (.panic payload) ()

theorem failsFast_need {site : Site} {next : Json → Inquiry Unit}
    (h : ∀ v, (next v).FailsFast) : (need site next).FailsFast := by
  refine ⟨fun reply hr => ?_, fun reply => ?_⟩
  · cases reply with
    | value v => cases hr
    | failure e => exact ⟨_, _, rfl, rfl⟩
    | panic payload => exact ⟨_, _, rfl, rfl⟩
  · cases reply with
    | value v => exact h v
    | failure e => trivial
    | panic payload => trivial

/-- **An inquiry that succeeds and asks for a site** was answered there with a value, for with
a draw that fails it would have failed. -/
theorem FailsFast.exists_value {site : Site} {next : Reply → Inquiry σ} {c : Context}
    {s : Shared} (hq : (ask site next).FailsFast)
    (hv : (((ask site next).through c).run s).1.1 = .value ()) :
    ∃ v, (c.draw site s).1 = .value v
      ∧ (((next (.value v)).through c).run (c.draw site s).2).1.1 = .value ()
      ∧ ((ask site next).through c).run s
        = ((next (.value v)).through c).run (c.draw site s).2 := by
  have hrun : ((ask site next).through c).run s
      = ((next (c.draw site s).1).through c).run (c.draw site s).2 := rfl
  rw [hrun] at hv ⊢
  cases hr : (c.draw site s).1.isValue with
  | true =>
    obtain ⟨v, hvalue⟩ := Outcome.isValue_iff.mp hr
    rw [hvalue] at hv ⊢
    exact ⟨v, rfl, hv, rfl⟩
  | false =>
    obtain ⟨outcome, locals, hfin, hno⟩ := hq.1 _ hr
    rw [hfin] at hv
    change outcome = .value () at hv
    rw [hv] at hno
    cases hno

/-- An inquiry that asks only for sites of a kind, whatever it is answered. -/
def Asks (P : Site → Prop) : Inquiry σ → Prop
  | .finish _ _ => True
  | .ask site next => P site ∧ ∀ reply, (next reply).Asks P

theorem asks_need {P : Site → Prop} {site : Site} {next : Json → Inquiry Unit} (hs : P site)
    (hn : ∀ v, (next v).Asks P) : (need site next).Asks P := by
  refine ⟨hs, fun reply => ?_⟩
  cases reply with
  | value v => exact hn v
  | failure e => trivial
  | panic payload => trivial

/-- Draw two sites. -/
def two : Inquiry Unit :=
  .need (.drawn "x" default) fun _ => .need (.drawn "y" default) fun _ =>
    .finish (.value ()) ()

theorem asks_two {P : Site → Prop} (h : ∀ name, P (.drawn name default)) : two.Asks P :=
  asks_need (h "x") fun _ => asks_need (h "y") fun _ => trivial

/-! ## Putting an inquiry to a trace -/

/-- What a trace answers a site; an observation answers itself. -/
def answerOf (t : Trace) (site : Site) : Option Json :=
  match site.observed with
  | some v => some v
  | none => t.assignment.get? site.name

/-- **An inquiry that a trace replays**: every site that it comes to ask for is
in the trace, and with the answers from there it succeeds. -/
def Replays (t : Trace) : Inquiry σ → Prop
  | .finish outcome _ => outcome = .value ()
  | .ask site next =>
    t.contains site.name = true
      ∧ ∃ v, answerOf t site = some v ∧ (next (.value v)).Replays t

/-- What a program draws through when a trace is replayed. -/
def replaying (t : Trace) (id : Nat) (token : Token) : Context :=
  ⟨.link id (.replay t.assignment) .empty, token⟩

theorem draw_replaying {t : Trace} (id : Nat) {token : Token} {site : Site} {v : Json}
    {s : Shared} (ht : s.isCancelled token = false) (hv : answerOf t site = some v) :
    (replaying t id token).draw site s = (.value v, s) := by
  unfold Context.draw
  rw [if_neg (by rw [replaying, ht]; exact Bool.false_ne_true)]
  show Handler.drawReplay t.assignment site none s = _
  unfold answerOf at hv
  unfold Handler.drawReplay
  cases ho : site.observed with
  | some w =>
    rw [ho] at hv
    cases hv
    rfl
  | none =>
    rw [ho] at hv
    dsimp only at hv ⊢
    rw [hv]

/-- **An inquiry over a replay of the trace succeeds**, and leaves the state
alone. Every site that it asks for is in the trace, and every draw among these
is answered with the value there. -/
theorem replay_run {t : Trace} {q : Inquiry σ} (hq : q.Replays t) (id : Nat)
    {token : Token} {s : Shared} (ht : s.isCancelled token = false) :
    (((q.through (replaying t id token)).run s).1.1 = .value ()
        ∧ ((q.through (replaying t id token)).run s).2 = s)
      ∧ ∀ a ∈ (q.through (replaying t id token)).transcript s,
        t.contains a.1.name = true ∧ (a.1.observed = none →
          ∃ node, t.get? a.1.name = some node ∧ a.2 = .value node.value) := by
  induction q with
  | finish outcome locals => exact ⟨⟨hq, rfl⟩, fun a ha => nomatch ha⟩
  | ask site next ih =>
    obtain ⟨hc, v, hv, hnext⟩ := hq
    have hdraw := draw_replaying id (s := s) ht hv
    obtain ⟨hrun, htrans⟩ := ih (.value v) hnext
    unfold through
    rw [Program.run_draw, Program.transcript, hdraw]
    refine ⟨hrun, fun a ha => ?_⟩
    rcases List.mem_cons.mp ha with rfl | ha
    · refine ⟨hc, fun ho => ?_⟩
      unfold answerOf at hv
      rw [ho] at hv
      dsimp only at hv
      rw [Trace.assignment, OrderedMap.get?_map, Option.map_eq_some_iff] at hv
      obtain ⟨node, hn, rfl⟩ := hv
      exact ⟨node, hn, rfl⟩
    · exact htrans a ha

end Inquiry

end Resampler
