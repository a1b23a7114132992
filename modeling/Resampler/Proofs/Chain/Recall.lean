import Resampler.Proofs.Chain.Cache
import Resampler.Proofs.Chain.Pairing
import Resampler.Proofs.Chain.Regime
import Resampler.Proofs.Store.Retention

/-!
# What a cache recalls

Whatever is drawn through a cache with a value is in it afterwards, and no draw takes
anything out of a cache or a store (`Shared.Onward`). So a cache that has what another had
in the end answers every draw that the other one was asked for on the way, with the value
that it was answered then. It needs nobody below it for that, and leaves the state alone.

Such a value travelled up the chain as it was, so a draw that comes to a value comes to it
at every chain on its way (`Chain.throughout_succeeds`).
-/

namespace Resampler

namespace Shared

/-- **Nothing is lost** from caches and stores. -/
structure Onward (s t : Shared) : Prop where
  caches : ∀ {i entry v}, (s.cache i).get? entry = some v → (t.cache i).get? entry = some v
  stores : ∀ {i st}, s.stores.get? i = some st →
    ∃ st', t.stores.get? i = some st' ∧ st.Gains (fun _ => True) st'

variable {s t u : Shared}

theorem Onward.of_eq (hc : t.caches = s.caches) (hs : t.stores = s.stores) : s.Onward t where
  caches {i entry v} h := by
    unfold cache at h ⊢
    rw [hc, h]
  stores {i st} h := ⟨st, hs ▸ h, .refl st⟩

theorem Onward.refl (s : Shared) : s.Onward s := .of_eq rfl rfl

theorem Onward.trans (h : s.Onward t) (h' : t.Onward u) : s.Onward u where
  caches hget := h'.caches (h.caches hget)
  stores hst := by
    obtain ⟨st', hst', hgains⟩ := h.stores hst
    obtain ⟨st'', hst'', hgains'⟩ := h'.stores hst'
    exact ⟨st'', hst'', hgains.trans hgains'⟩

/-- A cache that takes a value keeps what it has. -/
theorem onward_remember (s : Shared) (i : Nat) (entry : String × RandomKey) (v : Json) :
    s.Onward (s.remember i entry v) := by
  refine ⟨fun {j e w} hget => ?_, fun {j st} hst => ⟨st, hst, .refl st⟩⟩
  rw [cache_remember]
  split
  · next hij =>
    subst hij
    rw [OrderedMap.get?_insertIfAbsent, hget]
    rfl
  · exact hget

end Shared

namespace Handler

variable {id : Nat} {h : Handler} {name : String} {s t : Shared}

/-- What an interpreter writes takes nothing away. -/
theorem Writes.onward (hw : h.Writes id name s t) : s.Onward t := by
  cases hw with
  | remember i _ _ entry v => exact s.onward_remember i entry v
  | keep _ hk =>
    refine ⟨fun {i e w} hget => ?_, Shared.gains_keep trivial hk⟩
    obtain ⟨st, files, rfl⟩ := Shared.keep_ok hk
    exact hget
  | _ => exact .of_eq rfl rfl

end Handler

/-- **A draw takes nothing out of caches and stores.** -/
theorem Chain.onward_draw (c : Chain) (site : Site) (key : Option RandomKey) (s : Shared) :
    s.Onward (c.draw site key s).2 := by
  have htolerates {id : Nat} {h : Handler} : (regimeOf site.name s.Onward).Tolerates id h :=
    tolerates_regimeOf (fun hw hs => hs.trans hw.onward) (fun _ _ hs => hs.trans (.of_eq rfl rfl))
      fun _ _ hs => hs.trans (.of_eq rfl rfl)
  exact ((regimeOf site.name s.Onward).keeps_draw htolerates c site key s rfl (.refl s)).after

/-! ## Draws that come to a value -/

namespace Chain

/-- **A draw that comes to a value** of a kind, before some later state. -/
def Succeeds (R : Json → Prop) (t : Shared) (c : Chain) (site : Site) (key : Option RandomKey)
    (s : Shared) : Prop :=
  site.observed = none →
    ∃ v, R v ∧ (c.draw site key s).1 = .value v ∧ (c.draw site key s).2.Onward t

variable {R : Json → Prop} {c : Chain} {site : Site} {key : Option RandomKey} {s t : Shared}

/-- **A draw that comes to a value comes to it all the way down.** -/
theorem throughout_succeeds (h : c.Succeeds R t site key s) :
    c.Throughout (Succeeds R t) site key s := by
  induction c generalizing site key s with
  | empty => exact h
  | link id handler rest ih =>
    refine ⟨h, fun x hx => ih fun ho => ?_⟩
    rw [(Handler.name_of_handed hx).2] at ho
    obtain ⟨v, hv, hreply, honward⟩ := h ho
    rw [draw_link, Handler.draw_of_handed hx] at hreply honward
    have hwrites := (Handler.takesBack_cases id handler site key
      (rest.draw x.site x.key x.state)).2
    exact ⟨v, hv, Handler.value_of_takesBack hreply, hwrites.onward.trans honward⟩
  | branch id selects alternate rest iha ihr =>
    refine ⟨h, fun hb => iha ?_, fun hb => ihr ?_⟩
    · unfold Succeeds at h ⊢
      rwa [draw_branch_of_selects hb] at h
    · unfold Succeeds at h ⊢
      rwa [draw_branch_of_not_selects hb] at h

end Chain

/-! ## Caches and stores -/

namespace Handler

/-- **A cache**, in memory or over a store. -/
def IsCache : Handler → Prop
  | .memo _ => True
  | .persistent _ => True
  | _ => False

/-- **What a cache has for a draw**; a store has it as a text. -/
def Recalls (h : Handler) (s : Shared) (d : Distribution) (k : RandomKey) (v : Json) : Prop :=
  match h with
  | .memo i => (s.cache i).get? (d.identity, k) = some v
  | .persistent i => ∃ st text, s.stores.get? i = some st
    ∧ st.get? (d.cacheKey k) = .ok (some text) ∧ Json.ofText? text = some v
  | _ => False

/-- **A value that a cache can give back**: a store must read it from its text. -/
def Rereads (h : Handler) (v : Json) : Prop :=
  ∀ i, h = .persistent i → Json.ofText? v.text = some v

/-- The store of a cache works, if it has one. -/
def Works (h : Handler) (s : Shared) : Prop :=
  ∀ i, h = .persistent i → ∃ st, s.stores.get? i = some st ∧ st.Works

variable {id : Nat} {h : Handler} {site : Site} {key : Option RandomKey} {k : RandomKey}
variable {d : Distribution} {v : Json} {s t : Shared} {next : Answerer}

theorem Recalls.onward (hr : h.Recalls s d k v) (ho : s.Onward t) : h.Recalls t d k v := by
  cases h with
  | memo i => exact ho.caches hr
  | persistent i =>
    obtain ⟨st, text, hst, hget, hread⟩ := hr
    obtain ⟨st', hst', hgains⟩ := ho.stores hst
    exact ⟨st', text, hst', hgains.get?_eq_ok hget, hread⟩
  | _ => exact hr.elim

theorem Works.onward (hw : h.Works s) (ho : s.Onward t) : h.Works t := by
  intro i hi
  obtain ⟨st, hst, hworks⟩ := hw i hi
  obtain ⟨st', hst', hgains⟩ := ho.stores hst
  exact ⟨st', hst', hgains.works hworks⟩

/-- **What a cache has it answers**, whoever is next, and the state stays as it is. -/
theorem draw_of_recalls (hr : h.Recalls s site.distribution k v) (ho : site.observed = none) :
    h.draw id next site (some k) s = (.value v, s) := by
  cases h with
  | memo i =>
    show drawMemo i next site (some k) s = _
    unfold drawMemo
    rw [ho]
    dsimp only
    rw [show (s.cache i).get? (site.distribution.identity, k) = some v from hr]
  | persistent i =>
    obtain ⟨st, text, hst, hget, hread⟩ := hr
    show drawPersistent i next site (some k) s = _
    unfold drawPersistent
    rw [ho]
    dsimp only
    rw [Shared.store_of_get?_eq_some hst, hget]
    dsimp only
    rw [hread]
  | _ => exact hr.elim

/-- A cache lets observations pass. -/
theorem IsCache.letsPass (hh : h.IsCache) : h.LetsPass := by
  cases h with
  | memo i | persistent i => trivial
  | _ => exact hh.elim

/-- **A chain that leaves caches and stores alone.** -/
def Aside (next : Answerer) : Prop :=
  ∀ site key s, (next site key s).2.caches = s.caches ∧ (next site key s).2.stores = s.stores

/-- What is drawn through a cache in memory with a value is in it afterwards. -/
theorem get?_drawMemo {i : Nat} (ho : site.observed = none) (hnext : Aside next)
    (hv : (drawMemo i next site key s).1 = .value v) :
    ∃ k, key = some k
      ∧ ((drawMemo i next site key s).2.cache i).get? (site.distribution.identity, k)
        = some v := by
  unfold drawMemo at hv ⊢
  rw [ho] at hv ⊢
  cases key with
  | none => cases hv
  | some k =>
    refine ⟨k, rfl, ?_⟩
    dsimp only at hv ⊢
    cases hget : (s.cache i).get? (site.distribution.identity, k) with
    | some w =>
      rw [hget] at hv
      cases hv
      exact hget
    | none =>
      rw [hget] at hv
      have hcaches := (hnext site (some k) s).1
      generalize next site (some k) s = out at hv hcaches ⊢
      obtain ⟨reply, u⟩ := out
      cases reply with
      | value w =>
        cases hv
        have hcache : u.cache i = s.cache i := by rw [Shared.cache, hcaches, Shared.cache]
        show ((u.remember i _ v).cache i).get? _ = _
        rw [Shared.cache_remember, if_pos rfl, OrderedMap.get?_insertIfAbsent, hcache, hget,
          if_pos rfl]
        rfl
      | failure e => cases hv
      | panic payload => cases hv

/-- **What is drawn through a store with a value**: its text is read, or kept. -/
theorem get?_drawPersistent {i : Nat} {st : Store} (hst : s.stores.get? i = some st)
    (hworks : st.Works) (ho : site.observed = none) (hnext : Aside next)
    (hv : (drawPersistent i next site key s).1 = .value v) :
    ∃ k st' text, key = some k ∧ (drawPersistent i next site key s).2.stores.get? i = some st'
      ∧ st'.get? (site.distribution.cacheKey k) = .ok (some text)
      ∧ (Json.ofText? text = some v ∨ text = v.text) := by
  unfold drawPersistent at hv ⊢
  rw [ho] at hv ⊢
  cases key with
  | none => cases hv
  | some k =>
    dsimp only at hv ⊢
    rw [Shared.store_of_get?_eq_some hst, hworks.get?_eq] at hv ⊢
    cases hget : st.entries.get? (site.distribution.cacheKey k) with
    | some text =>
      rw [hget] at hv
      dsimp only at hv ⊢
      cases hread : Json.ofText? text with
      | none =>
        rw [hread] at hv
        cases hv
      | some w =>
        rw [hread] at hv
        cases hv
        exact ⟨k, st, text, rfl, hst, (hworks.get?_eq _).trans (congrArg Except.ok hget),
          .inl hread⟩
    | none =>
      rw [hget] at hv
      have hstores := (hnext site (some k) s).2
      generalize next site (some k) s = out at hv hstores ⊢
      obtain ⟨reply, u⟩ := out
      cases reply with
      | failure e => cases hv
      | panic payload => cases hv
      | value w =>
        dsimp only at hv ⊢
        cases hk : u.keep i (site.distribution.cacheKey k) w.text with
        | error e =>
          rw [hk] at hv
          cases hv
        | ok u' =>
          rw [hk] at hv
          cases hv
          obtain ⟨st', files, hinserts, rfl⟩ := Shared.exists_inserts_of_keep hk
          have hu : u.stores.get? i = some st := hstores ▸ hst
          rw [Shared.store_of_get?_eq_some hu] at hinserts
          refine ⟨k, st', v.text, rfl, (Shared.get?_stores_withStore u i i st' files).trans
            (if_pos rfl), hinserts.get?_eq_ok hworks fun text htext => ?_, .inr rfl⟩
          -- There was nothing under the number.
          rw [hworks.get?_eq, hget] at htext
          cases htext

/-- **What is drawn through a cache with a value it has afterwards.** -/
theorem IsCache.recalls_draw (hh : h.IsCache) (hw : h.Works s) (ho : site.observed = none)
    (hnext : Aside next) (hv : (h.draw id next site key s).1 = .value v)
    (hread : h.Rereads v) :
    ∃ k, key = some k ∧ h.Recalls (h.draw id next site key s).2 site.distribution k v := by
  cases h with
  | memo i => exact get?_drawMemo ho hnext hv
  | persistent i =>
    obtain ⟨st, hst, hworks⟩ := hw i rfl
    obtain ⟨k, st', text, hk, hst', hget, htext⟩ := get?_drawPersistent hst hworks ho hnext hv
    refine ⟨k, hk, st', text, hst', hget, ?_⟩
    rcases htext with htext | rfl
    · exact htext
    · exact hread i rfl
  | _ => exact hh.elim

/-- A standard interpreter leaves all but its own keys alone. -/
theorem frame_drawStandard (id : Nat) (detectReuse : Bool) (site : Site)
    (key : Option RandomKey) (s : Shared) :
    ∃ used asked, (drawStandard id detectReuse site key s).2
        = { s with used := used, asked := asked }
      ∧ ∀ j, j ≠ id → (drawStandard id detectReuse site key s).2.usedKeys j = s.usedKeys j := by
  unfold drawStandard
  split
  · exact ⟨_, _, rfl, fun _ _ => rfl⟩
  · exact ⟨_, _, rfl, fun _ _ => rfl⟩
  · split
    · split
      · exact ⟨_, _, rfl, fun _ _ => rfl⟩
      · refine ⟨_, _, rfl, fun j hj => ?_⟩
        show (s.useUp id _).usedKeys j = _
        rw [Shared.usedKeys_useUp, if_neg (Ne.symm hj)]
    · exact ⟨_, _, rfl, fun _ _ => rfl⟩

theorem aside_standard (id : Nat) (detectReuse : Bool) :
    Aside (Chain.link id (.standard detectReuse) .empty).draw := by
  intro site key s
  obtain ⟨used, asked, hstandard, -⟩ := frame_drawStandard id detectReuse site key s
  have hdraw : (Chain.link id (.standard detectReuse) .empty).draw site key s
      = drawStandard id detectReuse site key s := rfl
  rw [hdraw, hstandard]
  exact ⟨rfl, rfl⟩

/-- A cache hands on what it is given, in the state in which it is given it. -/
theorem IsCache.eq_of_handsOn (hh : h.IsCache) {x : Handed}
    (hx : h.handsOn id site key s = some x) : x = ⟨site, key, s⟩ := by
  cases h with
  | memo i | persistent i =>
    unfold handsOn at hx
    dsimp only at hx
    repeat' split at hx
    all_goals cases hx
    all_goals rfl
  | _ => exact hh.elim

/-- A cache writes to its cache or to its store. -/
theorem IsCache.frame_writes (hh : h.IsCache) {name : String} (hw : h.Writes id name s t) :
    ∃ caches stores files, t = { s with caches := caches, stores := stores, files := files } := by
  cases hw with
  | nothing => exact ⟨_, _, _, rfl⟩
  | remember => exact ⟨_, _, _, rfl⟩
  | keep _ hk =>
    obtain ⟨st, files, rfl⟩ := Shared.keep_ok hk
    exact ⟨_, _, _, rfl⟩
  | _ => exact hh.elim

/-- **What a draw through a cache over a standard interpreter changes**: the cache, the
store, what has been asked, and the keys that the standard interpreter has used up. -/
structure FramesCached (h : Handler) (a : Nat) (s t : Shared) : Prop where
  only : ∃ used caches asked stores files, t = { s with
    used := used, caches := caches, asked := asked, stores := stores, files := files }
  used : ∀ {j}, j ≠ a → t.usedKeys j = s.usedKeys j
  caches : ∀ {j}, h ≠ .memo j → t.cache j = s.cache j

theorem IsCache.frames_draw (hh : h.IsCache) (id a : Nat) (detectReuse : Bool) (site : Site)
    (key : Option RandomKey) (s : Shared) :
    h.FramesCached a s
      ((Chain.link id h (.link a (.standard detectReuse) .empty)).draw site key s).2 := by
  rw [Chain.draw_link]
  cases hx : h.handsOn id site key s with
  | none =>
    rcases state_of_kept hx (Chain.link a (.standard detectReuse) .empty).draw
      with he | ⟨d, k, rfl, -⟩
    · rw [he]
      exact ⟨⟨_, _, _, _, _, rfl⟩, fun _ => rfl, fun _ => rfl⟩
    · exact hh.elim
  | some x =>
    rw [draw_of_handed hx]
    obtain rfl := hh.eq_of_handsOn hx
    obtain ⟨used, asked, hstandard, hused⟩ := frame_drawStandard a detectReuse site key s
    have hwrites := (takesBack_cases id h site key
      (drawStandard a detectReuse site key s)).2
    obtain ⟨caches, stores, files, hwritten⟩ := hh.frame_writes hwrites
    have hcaches {j : Nat} (hj : h ≠ .memo j) := hwrites.cache_eq hj
    rw [hstandard] at hwritten hcaches hused
    show h.FramesCached a s (h.takesBack id site key (drawStandard a detectReuse site key s)).2
    refine ⟨⟨used, caches, asked, stores, files, hwritten⟩, fun {j} hj => ?_, fun hj => hcaches hj⟩
    rw [hwritten]
    exact hused j hj

end Handler

end Resampler
