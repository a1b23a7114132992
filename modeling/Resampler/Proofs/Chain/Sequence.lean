import Resampler.Proofs.Chain.Recall

/-!
# Draws one after the other

Chains that share caches, stores or instances find there what the draws before have left,
through whatever chains those went. So what is said of shared things is said of a sequence
of draws, each asked of a chain of its own (`Shared.after`).

Within a single draw the state goes down the chain and comes up again. On the way down no
more is written than the keys that threads hold and what spies have seen
(`Shared.Descends`), so a draw finds caches, stores and traces as they were when it was
asked. On the way up nothing is lost any more (`Chain.throughout_underway`).
-/

namespace Resampler

/-- **A draw that is asked of a chain.** -/
structure Request where
  /-- The chain. -/
  chain : Chain
  /-- The site. -/
  site : Site
  /-- The key. -/
  key : Option RandomKey

/-- What the draw comes to, and the state that it leaves. -/
def Request.outcome (d : Request) (s : Shared) : Reply × Shared :=
  d.chain.draw d.site d.key s

namespace Shared

/-- **The state after some draws**, which are asked one after the other. -/
def after (s : Shared) (draws : List Request) : Shared :=
  draws.foldl (fun t d => (d.outcome t).2) s

variable {s t u : Shared}

theorem after_append (s : Shared) (draws more : List Request) :
    s.after (draws ++ more) = (s.after draws).after more :=
  List.foldl_append

theorem after_cons (s : Shared) (d : Request) (draws : List Request) :
    s.after (d :: draws) = (d.outcome s).2.after draws := rfl

/-- **No sequence of draws takes anything out of caches and stores.** -/
theorem onward_after (s : Shared) (draws : List Request) : s.Onward (s.after draws) := by
  induction draws generalizing s with
  | nil => exact .refl s
  | cons d rest ih => exact (d.chain.onward_draw d.site d.key s).trans (ih _)

/-- **A state in which a draw may come down from another**: threads may hold other keys, and
spies may have seen it. -/
def Descends (s t : Shared) : Prop :=
  ∃ held sightings, t = { s with held := held, sightings := sightings }

theorem Descends.refl (s : Shared) : s.Descends s := ⟨_, _, rfl⟩

theorem Descends.trans (h : s.Descends t) (h' : t.Descends u) : s.Descends u := by
  obtain ⟨held, sightings, rfl⟩ := h
  obtain ⟨held', sightings', rfl⟩ := h'
  exact ⟨held', sightings', rfl⟩

theorem Descends.cache (h : s.Descends t) (i : Nat) : t.cache i = s.cache i := by
  obtain ⟨held, sightings, rfl⟩ := h
  rfl

theorem Descends.trace (h : s.Descends t) (i : Nat) : t.trace i = s.trace i := by
  obtain ⟨held, sightings, rfl⟩ := h
  rfl

end Shared

/-- What is handed on is handed on in a state that descends. -/
theorem Handler.descends_of_handed {id : Nat} {h : Handler} {site : Site}
    {key : Option RandomKey} {s : Shared} {x : Handed}
    (hx : h.handsOn id site key s = some x) : s.Descends x.state :=
  state_of_handed hx

/-- What is handed on leaves the keys of other threads alone. -/
theorem Handler.heldKey_of_handed {id j : Nat} {h : Handler} {site : Site}
    {key : Option RandomKey} {s : Shared} {x : Handed}
    (hx : h.handsOn id site key s = some x) (hne : ∀ force, h = .thread force → id ≠ j) :
    x.state.heldKey j = s.heldKey j := by
  unfold Handler.handsOn at hx
  repeat' split at hx
  all_goals cases hx
  -- Only a thread that gives its key writes to what is held.
  case h_2.isFalse.refl => exact (Shared.heldKey_hold ..).trans (if_neg (hne _ rfl))
  all_goals rfl

namespace Chain

/-- **A draw on its way** between two states: the one that it was asked in, and one in which
nothing of what it leaves is lost. -/
structure Underway (s u : Shared) (c : Chain) (site : Site) (key : Option RandomKey)
    (x : Shared) : Prop where
  began : s.Descends x
  ended : (c.draw site key x).2.Onward u

variable {c : Chain} {site : Site} {key : Option RandomKey} {s u x : Shared}

/-- **A draw is on its way all the way down.** -/
theorem throughout_underway (h : c.Underway s u site key x) :
    c.Throughout (Underway s u) site key x := by
  induction c generalizing site key x with
  | empty => exact h
  | link id handler rest ih =>
    refine ⟨h, fun y hy => ih ⟨h.began.trans (Handler.descends_of_handed hy), ?_⟩⟩
    have hended := h.ended
    rw [draw_link, Handler.draw_of_handed hy] at hended
    exact (Handler.takesBack_cases id handler site key _).2.onward.trans hended
  | branch id selects alternate rest iha ihr =>
    refine ⟨h, fun hb => iha ⟨h.began, ?_⟩, fun hb => ihr ⟨h.began, ?_⟩⟩
    · exact draw_branch_of_selects hb key x ▸ h.ended
    · exact draw_branch_of_not_selects hb key x ▸ h.ended

end Chain

end Resampler
