import Resampler.Proofs.Chain.Cache
import Resampler.Proofs.Program.Inquiry

/-!
# A new thread of keys reproduces a program

Under a thread that has just been made, the draws of a program get keys that depend on
nothing but the key that the thread started from: the thread splits it once for each of
them. A plain chain hands these keys on as they are, past threads that hold other keys by
then, and its caches answer as the distributions do. So what a program comes to that only
asks is a function of that key, `Inquiry.answered`, whatever happened before and whichever
of its draws are hits.
-/

namespace Resampler

variable {σ : Type} {U : Distribution → Prop} {I : Nat → Prop}

namespace Inquiry

/-- **What an inquiry comes to under a key**: observations are answered with their values,
and draws by their distributions, under keys that are split from it. -/
def answered (k : RandomKey) : Inquiry σ → Ending σ
  | .finish outcome locals => (outcome, locals)
  | .ask site next =>
    match site.observed with
    | some v => (next (.value v)).answered k
    | none => (next (site.ask k.deeper)).answered k.incremented

/-- What an inquiry comes to if every draw is cancelled. -/
def refused : Inquiry σ → Ending σ
  | .finish outcome locals => (outcome, locals)
  | .ask _ next => (next (.failure .cancelled)).refused

/-- **An inquiry in a scope**: what it comes to, unless the scope is refused, and the state
after it. -/
def inScope (q : Inquiry σ) (c : Context) (layer : Layer) (s : Shared) :
    Except Error (Ending σ) × Shared :=
  if c.admits s layer then
    (.ok ((q.through (c.inside layer)).run (s.install layer.id)).1,
      ((q.through (c.inside layer)).run (s.install layer.id)).2.release layer.id)
  else (.error .reentrant, s)

/-- A program that runs an inquiry in a scope goes on from there. -/
theorem run_scope (q : Inquiry σ) (c : Context) (layer : Layer)
    (next : Except Error (Ending σ) → Program σ) (s : Shared) :
    (Program.scope c layer q.through next).run s
      = (next (q.inScope c layer s).1).run (q.inScope c layer s).2 := by
  unfold inScope
  by_cases ha : c.admits s layer = true
  · rw [Program.run_scope_of_admits ha, if_pos ha]
  · rw [Program.run_scope_of_not_admits ha, if_neg ha]

/-- Once the token is cancelled nothing is answered. -/
theorem run_of_cancelled (q : Inquiry σ) {c : Context} {s : Shared}
    (h : s.isCancelled c.token = true) : (q.through c).run s = (q.refused, s) := by
  induction q with
  | finish outcome locals => rfl
  | ask site next ih =>
    have hdraw : c.draw site s = (.failure .cancelled, s) := if_pos h
    unfold through refused
    rw [Program.run_draw, hdraw]
    exact ih _

/-- **Under a thread of keys over a plain chain** an inquiry comes to what the key that the
thread holds decides, and the caches stay honest. -/
theorem run_threaded (hU : Distinguished U) {q : Inquiry σ}
    (hq : q.Asks fun site => site.observed = none → U site.distribution) {c : Context}
    (hc : c.chain.IsPlain I) (i : Nat) {s : Shared} (hs : s.Honest U I)
    (live : s.isCancelled c.token = false) :
    ((q.through (c.inside (.plain i (.thread false)))).run s).1 = q.answered (s.heldKey i)
      ∧ ((q.through (c.inside (.plain i (.thread false)))).run s).2.Honest U I := by
  induction q generalizing s with
  | finish outcome locals => exact ⟨rfl, hs⟩
  | ask site next ih =>
    have hdraw : (c.inside (.plain i (.thread false))).draw site s
        = Handler.drawThread i false c.chain.draw site none s := if_neg (by
      show ¬ s.isCancelled c.token = true
      rw [live]
      exact Bool.false_ne_true)
    unfold through answered
    rw [Program.run_draw, hdraw]
    cases ho : site.observed with
    | some v =>
      rw [Handler.drawThread_of_keyed (.inl (by rw [ho]; rfl)), hc.draw_observed ho]
      exact ih _ (hq.2 _) hs live
    | none =>
      have hasked := hc.asked hU ho (hq.1 ho) (s.heldKey i).deeper
        (s := s.hold i (s.heldKey i).incremented) (hs.of_eq fun _ _ => rfl)
      rw [Handler.drawThread_of_unkeyed ho]
      generalize c.chain.draw site _ _ = out at hasked ⊢
      obtain ⟨hreply, hhonest, ⟨caches, asked, hstate⟩, -⟩ := hasked
      -- The thread holds the next key, and nobody else has split it.
      have hheld : out.2.heldKey i = (s.heldKey i).incremented := by
        rw [hstate]
        exact (Shared.heldKey_hold ..).trans (if_pos rfl)
      have hlive : out.2.isCancelled c.token = false := by
        rw [hstate]
        exact live
      have hrest := ih out.1 (hq.2 _) hhonest hlive
      rw [hheld, hreply] at hrest
      rw [hreply]
      exact hrest

end Inquiry

/-- **A thread that has just been made**: it holds the key that it was made from, and may
be installed in a scope. -/
structure Context.NewThread (c : Context) (s : Shared) (i : Nat) (k : RandomKey) : Prop where
  admitted : c.admits s (.plain i (.thread false)) = true
  held : s.heldKey i = k

/-- An inquiry in the scope of a new thread. -/
theorem Inquiry.inScope_newThread (hU : Distinguished U) {q : Inquiry σ}
    (hq : q.Asks fun site => site.observed = none → U site.distribution) {c : Context}
    (hc : c.chain.IsPlain I) {i : Nat} {k : RandomKey} {s : Shared} (hs : s.Honest U I)
    (hi : c.NewThread s i k) :
    (q.inScope c (.plain i (.thread false)) s).1
        = .ok (if s.isCancelled c.token then q.refused else q.answered k)
      ∧ (q.inScope c (.plain i (.thread false)) s).2.Honest U I := by
  unfold inScope
  rw [if_pos hi.admitted]
  cases live : s.isCancelled c.token with
  | true =>
    have hrun : (q.through (c.inside (.plain i (.thread false)))).run
        (s.install (Layer.plain i (.thread false)).id) = (q.refused, _) :=
      run_of_cancelled q live
    rw [hrun]
    exact ⟨rfl, hs.of_eq fun _ _ => rfl⟩
  | false =>
    have hrun := run_threaded hU hq hc i (s := s.install i) (hs.of_eq fun _ _ => rfl) live
    have hheld : (s.install i).heldKey i = k := hi.held
    rw [hheld] at hrun
    exact ⟨congrArg Except.ok hrun.1, hrun.2.of_eq fun _ _ => rfl⟩

/-- **A new thread of keys reproduces a program.** Between two runs, each in a scope of its
own under a new thread from the same key, and before them, anything may be drawn through
plain chains that share the caches. -/
theorem Inquiry.reproduces (hU : Distinguished U) (q : Inquiry σ)
    (hq : q.Asks fun site => site.observed = none → U site.distribution) {c : Context}
    (hc : c.chain.IsPlain I) {i j : Nat} {k : RandomKey} {s₀ s s' : Shared}
    (cold : ∀ i, I i → s₀.cache i = .empty) (before : s₀.Warmed U I s)
    (first : c.NewThread s i k)
    (between : (q.inScope c (.plain i (.thread false)) s).2.Warmed U I s')
    (second : c.NewThread s' j k)
    (live : s'.isCancelled c.token = s.isCancelled c.token) :
    ∃ ending, (q.inScope c (.plain i (.thread false)) s).1 = .ok ending
      ∧ (q.inScope c (.plain j (.thread false)) s').1 = .ok ending := by
  have hs := before.honest hU (Shared.honest_of_empty cold)
  have hfirst := inScope_newThread hU hq hc hs first
  have hsecond := inScope_newThread hU hq hc (between.honest hU hfirst.2) second
  refine ⟨_, hfirst.1, ?_⟩
  rw [hsecond.1, live]

/-- A thread and two caches over a standard interpreter. -/
def Context.layered : Context :=
  ⟨.link 4 (.memo 1) (.link 3 (.thread false) (.link 2 (.memo 0)
    (.link 1 (.standard false) .empty))), .ofId 9⟩

/-- Another chain that shares one of the caches. -/
def Chain.sharing : Chain := .link 6 (.memo 0) (.link 5 (.standard false) .empty)

/-- One of the caches is filled before the first run, and both between the two. -/
theorem Inquiry.reproduces_two :
    ∃ s s' ending, (two.inScope .layered (.plain 7 (.thread false)) s).1 = .ok ending
      ∧ (two.inScope .layered (.plain 8 (.thread false)) s').1 = .ok ending := by
  let U : Distribution → Prop := (· = default)
  have hU : Distinguished U := by
    rintro d d' rfl rfl _ k
    rfl
  have hq : two.Asks fun site => site.observed = none → U site.distribution :=
    asks_two fun _ _ => rfl
  have hc : Context.layered.chain.IsPlain fun _ => True := ⟨trivial, trivial, trivial⟩
  have hsharing : Chain.sharing.IsPlain fun _ => True := ⟨trivial, trivial⟩
  have hdefault (name : String) : (Site.drawn name default).observed = none →
      U (Site.drawn name default).distribution := fun _ => rfl
  let filled : Shared := (Chain.sharing.draw (.drawn "z" default) (some .root) (.start "/")).2
  have hfilled : (Shared.start "/").Warmed U (fun _ => True) filled :=
    .draw .refl Chain.sharing (.drawn "z" default) (some .root) (hsharing.feeds (hdefault "z") _ _)
  let s : Shared := filled.hold 7 .root
  have before : (Shared.start "/").Warmed U (fun _ => True) s := hfilled.elsewhere fun _ _ => rfl
  let after : Shared := (two.inScope .layered (.plain 7 (.thread false)) s).2
  let drawn : Shared :=
    (Context.layered.chain.draw (.drawn "w" default) (some .root) after).2
  have hdrawn : after.Warmed U (fun _ => True) drawn :=
    .draw .refl Context.layered.chain (.drawn "w" default) (some .root)
      (hc.feeds (hdefault "w") _ _)
  let s' : Shared := drawn.hold 8 .root
  have between : after.Warmed U (fun _ => True) s' :=
    hdrawn.elsewhere fun i _ => drawn.cache_hold 8 i .root
  have hfirst : Context.layered.NewThread s 7 .root := ⟨rfl, rfl⟩
  have hsecond : Context.layered.NewThread s' 8 .root :=
    ⟨by decide +kernel, (Shared.heldKey_hold ..).trans (if_pos rfl)⟩
  have hlive : s'.isCancelled Context.layered.token = s.isCancelled Context.layered.token := by
    decide +kernel
  exact ⟨s, s', reproduces hU two hq hc (fun _ _ => rfl) before hfirst between hsecond hlive⟩

end Resampler
