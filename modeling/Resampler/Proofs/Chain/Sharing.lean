import Resampler.Proofs.Chain.Sequence

/-!
# A cache keeps what it has answered first

A cache in memory may belong to several instances, in one chain or in many, so that what
one of them misses another may fill while the draw is still on its way below the first.
This does no harm, because an answer travels up a chain as it is: all that one draw puts
into a cache is the value that it is answered (`Chain.get?_cache_draw`). So an instance
that fills an entry, and finds when it does that somebody below has filled it, finds its
own answer there.

`Handler.HoldsFast` is what follows for a draw that comes to an instance, and
`Shared.fixesCache_after` that it holds wherever a sequence of draws comes to a cache.
-/

namespace Resampler

namespace Handler

variable {id i : Nat} {site : Site} {key : Option RandomKey} {s : Shared}

/-- **A cache makes nothing of an answer**, or it is a value and the cache remembers it. -/
theorem takesBack_memo (id i : Nat) (site : Site) (key : Option RandomKey)
    (out : Reply × Shared) : takesBack id (.memo i) site key out = out
      ∨ ∃ k v, out.1 = .value v ∧ takesBack id (.memo i) site key out
        = (.value v, out.2.remember i (site.distribution.identity, k) v) := by
  obtain ⟨reply, s⟩ := out
  unfold takesBack
  dsimp only
  split
  · next k _ =>
    cases reply with
    | value v => exact .inr ⟨k, v, rfl, rfl⟩
    | failure e => exact .inl rfl
    | panic payload => exact .inl rfl
  · exact .inl rfl

theorem takesBack_memo_fst (out : Reply × Shared) :
    (takesBack id (.memo i) site key out).1 = out.1 := by
  rcases takesBack_memo id i site key out with he | ⟨k, v, hv, he⟩
  · rw [he]
  · rw [he, hv]

/-- A cache remembers what it was asked for and has been answered. -/
theorem takesBack_memo_of_value {k : RandomKey} {v : Json} (ho : site.observed = none)
    (s : Shared) : takesBack id (.memo i) site (some k) (.value v, s)
      = (.value v, s.remember i (site.distribution.identity, k) v) := by
  unfold takesBack
  rw [ho]
  rfl

/-- A cache hands an observation on as it is, and tells its answer on as it came. -/
theorem handsOn_memo_of_observed (id i : Nat) {w : Json} (ho : site.observed = some w)
    (key : Option RandomKey) (s : Shared) : HandsOn id (.memo i) site key s ⟨site, key, s⟩
      ∧ ∀ out, takesBack id (.memo i) site key out = out := by
  have hx : handsOn id (.memo i) site key s = some ⟨site, key, s⟩ := by
    unfold handsOn
    rw [ho]
  refine ⟨⟨hx, fun next => draw_of_handed hx⟩, fun out => ?_⟩
  unfold takesBack
  rw [ho]

/-- A cache refuses a draw without a key. -/
theorem keeps_memo_of_unkeyed (id i : Nat) (ho : site.observed = none) (s : Shared) :
    Keeps id (.memo i) site none s (.failure (.missingKey site.name), s) := by
  refine ⟨?_, fun next => ?_, .inl rfl⟩
  all_goals simp only [handsOn, draw, drawMemo, ho]

/-- A cache answers what it has. -/
theorem keeps_memo_of_hit (id : Nat) {k : RandomKey} {v : Json} (ho : site.observed = none)
    (h : (s.cache i).get? (site.distribution.identity, k) = some v) :
    Keeps id (.memo i) site (some k) s (.value v, s) := by
  refine ⟨?_, fun next => ?_, .inl rfl⟩
  all_goals simp only [handsOn, draw, drawMemo, ho, h]

/-- A cache hands on what it does not have. -/
theorem handsOn_memo_of_miss (id : Nat) {k : RandomKey} (ho : site.observed = none)
    (h : (s.cache i).get? (site.distribution.identity, k) = none) :
    HandsOn id (.memo i) site (some k) s ⟨site, some k, s⟩ := by
  have hx : handsOn id (.memo i) site (some k) s = some ⟨site, some k, s⟩ := by
    simp only [handsOn, ho, h]
  exact ⟨hx, fun next => draw_of_handed hx⟩

end Handler

namespace Shared

/-- What is remembered stands in the cache, if nothing or the same stood there before. -/
theorem get?_remember {s : Shared} {i : Nat} {entry : String × RandomKey} {v : Json}
    (h : (s.cache i).get? entry = none ∨ (s.cache i).get? entry = some v) :
    ((s.remember i entry v).cache i).get? entry = some v := by
  rw [cache_remember, if_pos rfl, OrderedMap.get?_insertIfAbsent, if_pos rfl]
  rcases h with h | h <;> rw [h] <;> rfl

end Shared

/-- **What a draw puts into a cache is what it is answered**, whichever instance does it. -/
theorem Chain.get?_cache_draw {c : Chain} {site : Site} {key : Option RandomKey} {s : Shared}
    {i : Nat} {entry : String × RandomKey} {v : Json}
    (hnone : (s.cache i).get? entry = none) (hv : (c.draw site key s).1 = .value v) :
    ((c.draw site key s).2.cache i).get? entry = none
      ∨ ((c.draw site key s).2.cache i).get? entry = some v := by
  induction c generalizing site key s with
  | empty => exact .inl hnone
  | branch id selects alternate rest iha ihr =>
    cases hb : selects site.name site.distribution with
    | true =>
      rw [draw_branch_of_selects hb] at hv ⊢
      exact iha hnone hv
    | false =>
      rw [draw_branch_of_not_selects hb] at hv ⊢
      exact ihr hnone hv
  | link id h rest ih =>
    rw [draw_link] at hv ⊢
    cases hx : h.handsOn id site key s with
    | none =>
      rcases Handler.state_of_kept hx rest.draw with he | ⟨_, k, -, -, -, he | he⟩
      all_goals
        rw [he]
        exact .inl hnone
    | some x =>
      rw [Handler.draw_of_handed hx] at hv ⊢
      have hbefore : (x.state.cache i).get? entry = none :=
        (Handler.descends_of_handed hx).cache i ▸ hnone
      -- The answer has come up as it is, so the rest of the chain has filled with it.
      have hbelow := Handler.value_of_takesBack hv
      have hfilled := ih hbefore hbelow
      by_cases hm : h = .memo i
      · subst hm
        rcases Handler.takesBack_memo id i site key (rest.draw x.site x.key x.state)
          with he | ⟨k, w, hw, he⟩
        · rw [he]
          exact hfilled
        · cases hw.symm.trans hbelow
          rw [he]
          by_cases hentry : (site.distribution.identity, k) = entry
          · exact .inr (hentry ▸ Shared.get?_remember (hentry ▸ hfilled))
          · show ((Shared.remember _ i _ v).cache i).get? entry = none
              ∨ ((Shared.remember _ i _ v).cache i).get? entry = some v
            rw [Shared.cache_remember, if_pos rfl, OrderedMap.get?_insertIfAbsent,
              if_neg hentry, Option.or_none]
            exact hfilled
      · rw [(Handler.takesBack_cases id h site key _).2.cache_eq hm]
        exact hfilled

/-! ## Draws that come to a cache -/

/-- **What a draw meets at an instance over a cache.** It was asked in the state `s`, comes
to the instance in the state `x` and comes to `out` there; the rest of the chain would come
to `below` with it. In the end the state is `u`. -/
structure Handler.HoldsFast (i : Nat) (s u : Shared) (id : Nat) (site : Site)
    (key : Option RandomKey) (x : Shared) (below out : Reply × Shared) : Prop where
  /-- On its way to the instance the draw has left the cache alone. -/
  arrives : x.cache i = s.cache i
  /-- Whatever the draw is, what is in the cache stays in it. -/
  stays : ∀ entry v, (x.cache i).get? entry = some v → (out.2.cache i).get? entry = some v
  /-- An observation is handed on as it is, and the cache has no part in what it comes to. -/
  observed : site.observed.isSome = true →
    HandsOn id (.memo i) site key x ⟨site, key, x⟩ ∧ out = below
  /-- A draw without a key is refused, whoever is next. -/
  unkeyed : site.observed = none → key = none →
    out = (.failure (.missingKey site.name), x) ∧ Keeps id (.memo i) site key x out
  /-- What is in the cache is answered, whoever is next. -/
  hit : ∀ k v, site.observed = none → key = some k →
    (s.cache i).get? (site.distribution.identity, k) = some v →
    out = (.value v, x) ∧ Keeps id (.memo i) site key x out
  /-- What is not in it is handed on as it is, and answered as the rest of the chain does. -/
  miss : ∀ k, site.observed = none → key = some k →
    (s.cache i).get? (site.distribution.identity, k) = none →
    HandsOn id (.memo i) site key x ⟨site, key, x⟩ ∧ out.1 = below.1
      ∧ (out.1.isValue = false → out = below)
  /-- What a draw with a key is answered is in the cache, at once and in the end. -/
  answered : ∀ k v, site.observed = none → key = some k → out.1 = .value v →
    (out.2.cache i).get? (site.distribution.identity, k) = some v
      ∧ (u.cache i).get? (site.distribution.identity, k) = some v

namespace Chain

variable {id i : Nat} {rest : Chain} {site : Site} {key : Option RandomKey} {k : RandomKey}
variable {s u x : Shared} {v : Json}

/-- **What an instance over a cache is asked for and answers** is in the cache then. -/
theorem get?_cache_of_answered (ho : site.observed = none)
    (hv : ((link id (.memo i) rest).draw site (some k) x).1 = .value v) :
    (((link id (.memo i) rest).draw site (some k) x).2.cache i).get?
      (site.distribution.identity, k) = some v := by
  cases hget : (x.cache i).get? (site.distribution.identity, k) with
  | some w =>
    have hhit := (Handler.keeps_memo_of_hit id ho hget).draw rest.draw
    rw [draw_link, hhit] at hv ⊢
    cases hv
    exact hget
  | none =>
    have hmiss := (Handler.handsOn_memo_of_miss id ho hget).draw rest.draw
    rw [draw_link, hmiss] at hv ⊢
    rw [Handler.takesBack_memo_fst] at hv
    -- Somebody below may have filled the entry, but with the same value.
    have hfilled := get?_cache_draw hget hv
    generalize rest.draw site (some k) x = out at hv hfilled ⊢
    obtain ⟨reply, y⟩ := out
    change reply = .value v at hv
    subst hv
    rw [Handler.takesBack_memo_of_value ho]
    exact Shared.get?_remember hfilled

/-- **A cache holds fast** whatever it was asked for before, and whatever becomes of it. -/
theorem Underway.holdsFast (h : (link id (.memo i) rest).Underway s u site key x) :
    Handler.HoldsFast i s u id site key x (rest.draw site key x)
      ((link id (.memo i) rest).draw site key x) := by
  have harrives := h.began.cache i
  refine ⟨harrives, fun entry v hget => ?_, fun ho => ?_, fun ho hk => ?_,
    fun k v ho hk hget => ?_, fun k ho hk hget => ?_, fun k v ho hk hv => ?_⟩
  · exact ((link id (.memo i) rest).onward_draw site key x).caches hget
  · obtain ⟨w, hw⟩ := Option.isSome_iff_exists.mp ho
    obtain ⟨hhands, hback⟩ := Handler.handsOn_memo_of_observed id i hw key x
    exact ⟨hhands, (hhands.draw rest.draw).trans (hback _)⟩
  · subst hk
    have hkeeps := Handler.keeps_memo_of_unkeyed id i ho x
    exact ⟨hkeeps.draw rest.draw, draw_link id _ rest ▸ hkeeps.draw rest.draw ▸ hkeeps⟩
  · subst hk
    rw [← harrives] at hget
    have hkeeps := Handler.keeps_memo_of_hit id ho hget
    exact ⟨hkeeps.draw rest.draw, draw_link id _ rest ▸ hkeeps.draw rest.draw ▸ hkeeps⟩
  · subst hk
    rw [← harrives] at hget
    have hhands := Handler.handsOn_memo_of_miss id ho hget
    refine ⟨hhands, ?_, fun hno => ?_⟩
    · rw [draw_link, hhands.draw, Handler.takesBack_memo_fst]
    · rw [draw_link, hhands.draw, Handler.takesBack_memo_fst] at hno
      rw [draw_link, hhands.draw, Handler.takesBack_of_not_isValue hno]
  · subst hk
    have hfilled := get?_cache_of_answered ho hv
    exact ⟨hfilled, h.ended.caches hfilled⟩

/-- **Where a draw comes to a cache, it holds fast.** -/
def AtCache (i : Nat) (s u : Shared) : Chain → Site → Option RandomKey → Shared → Prop
  | .link id (.memo j) rest, site, key, x => j = i →
    Handler.HoldsFast i s u id site key x (rest.draw site key x)
      ((link id (.memo j) rest).draw site key x)
  | _, _, _, _ => True

theorem Underway.atCache {c : Chain} (h : c.Underway s u site key x) :
    c.AtCache i s u site key x := by
  unfold AtCache
  split
  · rintro rfl
    exact h.holdsFast
  · trivial

end Chain

/-! ## Sequences of draws -/

/-- **A cache is fixed** from a state on, in which a draw is asked, to a later one. -/
structure Shared.FixesCache (i : Nat) (s u : Shared) (d : Request) : Prop where
  /-- What is in the cache stays in it, with the same value. -/
  kept : ∀ entry v, (s.cache i).get? entry = some v → (u.cache i).get? entry = some v
  /-- The cache holds fast wherever the draw comes to it. -/
  visits : d.chain.Throughout (Chain.AtCache i s u) d.site d.key s

/-- **A cache keeps what it has answered first**, in every sequence of draws through any
chains, however many instances have the cache and wherever they are linked. -/
theorem Shared.fixesCache_after (i : Nat) (s : Shared) (past : List Request) (d : Request)
    (future : List Request) :
    (s.after past).FixesCache i (s.after (past ++ d :: future)) d := by
  rw [Shared.after_append, Shared.after_cons]
  have hleft := (d.outcome (s.after past)).2.onward_after future
  have hdraw := d.chain.onward_draw d.site d.key (s.after past)
  refine ⟨fun entry v hget => (hdraw.trans hleft).caches hget, ?_⟩
  exact (Chain.throughout_underway ⟨.refl _, hleft⟩).mono Chain.Underway.atCache

/-- A draw that the first chain has answered the second answers alike. -/
example :
    let d : Distribution := .constant (.bool true) .null
    let first : Chain := .link 0 (.memo 0) (.link 1 (.standard false) .empty)
    let second : Chain := .link 2 (.memo 0) (.link 3 (.replay .empty) .empty)
    (second.draw (.drawn "y" d) (some .root)
      ((Shared.start "").after [⟨first, .drawn "x" d, some .root⟩])).1 = .value (.bool true) := rfl

end Resampler
