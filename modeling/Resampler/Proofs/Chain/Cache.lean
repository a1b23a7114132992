import Resampler.Proofs.Chain.Observation
import Resampler.Proofs.Chain.Passage

/-!
# Caches that tell the truth

A cache is honest if each of its entries is what a distribution with that identity
answers that key. Over a plain chain, of a standard interpreter under caches and threads,
an honest cache answers just as the distribution does, whatever it holds by then: for the
distributions that come to it are told apart by their identities. So it stays honest.

What else goes on in the state does not matter, as long as nobody fills these caches from
another chain. `Shared.Warmed` is all that may happen, and `Shared.Warmed.honest` that
caches that were empty at first are honest after it.
-/

namespace Resampler

/-- **Distributions that their identities tell apart**: two of one identity answer every
key alike. -/
def Distinguished (U : Distribution → Prop) : Prop :=
  ∀ ⦃d d'⦄, U d → U d' → d.identity = d'.identity → ∀ k, d.sample k = d'.sample k

namespace Shared

@[simp] theorem cache_remember (s : Shared) (i j : Nat) (entry : String × RandomKey)
    (v : Json) : (s.remember i entry v).cache j
      = if i = j then (s.cache i).insertIfAbsent entry v else s.cache j := by
  by_cases h : i = j <;> simp [cache, remember, h]

@[simp] theorem cache_hold (s : Shared) (id i : Nat) (k : RandomKey) :
    (s.hold id k).cache i = s.cache i := rfl

/-- **Some caches are honest**: what they hold is what distributions answer. -/
def Honest (U : Distribution → Prop) (I : Nat → Prop) (s : Shared) : Prop :=
  ∀ ⦃i⦄, I i → ∀ ⦃identity k v⦄, (s.cache i).get? (identity, k) = some v →
    ∃ d, U d ∧ d.identity = identity ∧ d.sample k = .value v

variable {U : Distribution → Prop} {I : Nat → Prop} {s t : Shared}

/-- Empty caches are honest. -/
theorem honest_of_empty (h : ∀ i, I i → s.cache i = .empty) : s.Honest U I := by
  intro i hi identity k v hget
  rw [h i hi, OrderedMap.get?_empty] at hget
  cases hget

theorem Honest.of_eq (h : s.Honest U I) (heq : ∀ i, I i → t.cache i = s.cache i) :
    t.Honest U I := by
  intro i hi identity k v hget
  rw [heq i hi] at hget
  exact h hi hget

/-- An answer of the distribution may be put into any cache. -/
theorem Honest.remember (h : s.Honest U I) {d : Distribution} {k : RandomKey} {v : Json}
    (hd : U d) (hv : d.sample k = .value v) (i : Nat) :
    (s.remember i (d.identity, k) v).Honest U I := by
  intro j hj identity k' w hget
  rw [cache_remember] at hget
  split at hget
  · next hij =>
    subst hij
    rw [OrderedMap.get?_insertIfAbsent] at hget
    cases hold : (s.cache i).get? (identity, k') with
    | some w' =>
      rw [hold] at hget
      cases hget
      exact h hj hold
    | none =>
      rw [hold] at hget
      by_cases he : (d.identity, k) = (identity, k')
      · rw [if_pos he] at hget
        cases he
        cases hget
        exact ⟨d, hd, rfl, hv⟩
      · rw [if_neg he] at hget
        cases hget
  · exact h hj hget

end Shared

namespace Site

/-- A value that the distribution of a site is asked for is one that it answers. -/
theorem ask_eq_value_iff {site : Site} {k : RandomKey} {v : Json} :
    site.ask k = .value v ↔ site.distribution.sample k = .value v := by
  unfold ask sample
  cases site.distribution.sample k <;> simp [Outcome.mapFailure]

end Site

namespace Chain

/-- **Plain chains**: a standard interpreter that does not detect reuse, under caches and
threads that are not forced. -/
def IsPlain (I : Nat → Prop) : Chain → Prop
  | .link _ (.standard false) _ => True
  | .link _ (.memo i) rest => I i ∧ rest.IsPlain I
  | .link _ (.thread false) rest => rest.IsPlain I
  | _ => False

variable {U : Distribution → Prop} {I : Nat → Prop} {c : Chain} {site : Site} {s : Shared}

/-- An observation is answered with its value, and the state stays as it is. -/
theorem IsPlain.draw_observed (hc : c.IsPlain I) {v : Json} (ho : site.observed = some v)
    (key : Option RandomKey) (s : Shared) : c.draw site key s = (.value v, s) := by
  induction c with
  | empty => exact hc.elim
  | branch id selects alternate rest iha ihr => exact hc.elim
  | link id h rest ih =>
    match h, hc with
    | .standard false, _ =>
      show Handler.drawStandard id false site key s = _
      unfold Handler.drawStandard
      rw [ho]
    | .memo i, hc =>
      rw [draw_link, Handler.LetsPass.draw_observed (h := .memo i) trivial ho]
      exact ih hc.2
    | .thread false, hc =>
      rw [draw_link, Handler.LetsPass.draw_observed (h := .thread false) trivial ho]
      exact ih hc

/-- **What a draw with a key comes to over honest caches.** -/
structure Asked (U : Distribution → Prop) (I : Nat → Prop) (site : Site) (k : RandomKey)
    (s : Shared) (out : Reply × Shared) : Prop where
  /-- The answer is that of the distribution. -/
  reply : out.1 = site.ask k
  /-- The caches are honest afterwards. -/
  honest : out.2.Honest U I
  /-- Only caches are filled, and it is noted what has been asked. -/
  frame : ∃ caches asked, out.2 = { s with caches := caches, asked := asked }
  /-- Other caches are not filled. -/
  others : ∀ j, ¬ I j → out.2.cache j = s.cache j

/-- **Honest caches answer as the distribution does**, hit or miss. -/
theorem IsPlain.asked (hU : Distinguished U) (hc : c.IsPlain I) (ho : site.observed = none)
    (hd : U site.distribution) (k : RandomKey) (hs : s.Honest U I) :
    Asked U I site k s (c.draw site (some k) s) := by
  induction c with
  | empty => exact hc.elim
  | branch id selects alternate rest iha ihr => exact hc.elim
  | link id h rest ih =>
    match h, hc with
    | .standard false, _ =>
      show Asked U I site k s (Handler.drawStandard id false site (some k) s)
      unfold Handler.drawStandard
      rw [ho]
      exact ⟨rfl, hs.of_eq fun _ _ => rfl, ⟨_, _, rfl⟩, fun _ _ => rfl⟩
    | .thread false, hc =>
      show Asked U I site k s (Handler.drawThread id false rest.draw site (some k) s)
      rw [Handler.drawThread_of_keyed (.inr rfl)]
      exact ih hc
    | .memo i, hc =>
      have below := ih hc.2
      show Asked U I site k s (Handler.drawMemo i rest.draw site (some k) s)
      unfold Handler.drawMemo
      rw [ho]
      dsimp only
      split
      · next v hit =>
        -- Whoever filled the entry answers this key as the distribution of the site does.
        obtain ⟨d, hd', hid, hv⟩ := hs hc.1 hit
        rw [hU hd' hd hid] at hv
        exact ⟨(Site.ask_eq_value_iff.mpr hv).symm, hs, ⟨_, _, rfl⟩, fun _ _ => rfl⟩
      · split
        · next v s' hn =>
          rw [hn] at below
          have hv := Site.ask_eq_value_iff.mp below.reply.symm
          obtain ⟨caches, asked, rfl⟩ := below.frame
          refine ⟨below.reply, below.honest.remember hd hv i, ⟨_, _, rfl⟩, fun j hj => ?_⟩
          have hne : i ≠ j := fun h => hj (h ▸ hc.1)
          rw [Shared.cache_remember, if_neg hne]
          exact below.others j hj
        · exact below

end Chain

/-! ## What keeps caches honest -/

/-- **A cache is fed from a plain chain**: where a draw comes to one of the caches, a plain
chain is next, and the distribution is one of those that identities tell apart. -/
def Feeds (U : Distribution → Prop) (I : Nat → Prop) :
    Chain → Site → Option RandomKey → Shared → Prop
  | .link _ (.memo i) rest, site, _, _ =>
    I i → site.observed = none → rest.IsPlain I ∧ U site.distribution
  | _, _, _, _ => True

section Feeding

variable {U : Distribution → Prop} {I : Nat → Prop} {c : Chain} {site : Site}
variable {key : Option RandomKey} {s t u : Shared}

/-- A draw comes to the chains that a plain chain consists of as it is. -/
theorem Chain.IsPlain.throughout {P : Chain → Site → Option RandomKey → Shared → Prop}
    (hc : c.IsPlain I) (hP : ∀ c key s, IsPlain I c → P c site key s) (key : Option RandomKey)
    (s : Shared) : c.Throughout P site key s := by
  induction c generalizing key s with
  | empty => exact hc.elim
  | branch id selects alternate rest iha ihr => exact hc.elim
  | link id h rest ih =>
    refine ⟨hP _ _ _ hc, fun x hx => ?_⟩
    match h, hc with
    | .standard false, _ => exact nomatch hx
    | .memo i, hc =>
      rw [Handler.site_of_handed hx nofun]
      exact ih hc.2 _ _
    | .thread false, hc =>
      rw [Handler.site_of_handed hx nofun]
      exact ih hc _ _

/-- A plain chain feeds its caches from plain chains. -/
theorem Chain.IsPlain.feeds (hc : c.IsPlain I) (hd : site.observed = none → U site.distribution)
    (key : Option RandomKey) (s : Shared) : c.Throughout (Feeds U I) site key s := by
  refine hc.throughout (fun c key s hc => ?_) key s
  unfold Feeds
  split
  · exact fun _ ho => ⟨hc.2, hd ho⟩
  · trivial

/-- What is not in a cache of its own, an interpreter leaves in caches as it is. -/
theorem Handler.Writes.cache_eq {id : Nat} {h : Handler} {name : String}
    (hw : h.Writes id name s t) {i : Nat} (hne : h ≠ .memo i) : t.cache i = s.cache i := by
  cases hw with
  | keep _ hk =>
    obtain ⟨st, files, rfl⟩ := Shared.keep_ok hk
    rfl
  | remember j _ _ entry v =>
    exact (Shared.cache_remember ..).trans (if_neg fun hj => hne (congrArg Handler.memo hj))
  | _ => rfl

/-- **A draw that feeds the caches from plain chains** leaves them honest. -/
theorem Chain.honest_draw (hU : Distinguished U) (hf : c.Throughout (Feeds U I) site key s)
    (hs : s.Honest U I) : (c.draw site key s).2.Honest U I := by
  induction c generalizing site key s with
  | empty => exact hs
  | branch id selects alternate rest iha ihr =>
    cases hb : selects site.name site.distribution with
    | true =>
      rw [draw_branch_of_selects hb]
      exact iha (hf.2.1 hb) hs
    | false =>
      rw [draw_branch_of_not_selects hb]
      exact ihr (hf.2.2 hb) hs
  | link id h rest ih =>
    by_cases hm : ∃ i, h = .memo i ∧ I i
    · obtain ⟨i, rfl, hi⟩ := hm
      cases ho : site.observed with
      | none =>
        -- The cache and what is next are a plain chain.
        obtain ⟨hrest, hd⟩ := hf.1 hi ho
        have hplain : (link id (.memo i) rest).IsPlain I := ⟨hi, hrest⟩
        cases key with
        | none =>
          show (Handler.drawMemo i rest.draw site none s).2.Honest U I
          unfold Handler.drawMemo
          rw [ho]
          exact hs
        | some k => exact (hplain.asked hU ho hd k hs).honest
      | some v =>
        have hx : (Handler.memo i).handsOn id site key s = some ⟨site, key, s⟩ := by
          unfold Handler.handsOn
          rw [ho]
        rw [draw_link, Handler.LetsPass.draw_observed (h := .memo i) trivial ho]
        exact ih (hf.2 _ hx) hs
    · -- None of the caches is this interpreter's own.
      rw [draw_link]
      cases hx : h.handsOn id site key s with
      | none =>
        rcases Handler.state_of_kept hx rest.draw with he | ⟨_, k, -, -, -, he | he⟩
        all_goals
          rw [he]
          exact hs.of_eq fun _ _ => rfl
      | some x =>
        rw [Handler.draw_of_handed hx]
        obtain ⟨_, _, hstate⟩ := Handler.state_of_handed hx
        have below := ih (hf.2 x hx) (by rw [hstate]; exact hs.of_eq fun _ _ => rfl)
        refine below.of_eq fun i hi => ?_
        exact (Handler.takesBack_cases id h site key _).2.cache_eq fun he => hm ⟨i, he, hi⟩

/-- **What may happen between two states** to caches that some chains share: draws that
feed them from plain chains, and anything that leaves them alone. -/
inductive Shared.Warmed (U : Distribution → Prop) (I : Nat → Prop) (s : Shared) :
    Shared → Prop where
  /-- Nothing has happened. -/
  | refl : Warmed U I s s
  /-- Something has been drawn. -/
  | draw {t : Shared} (before : Warmed U I s t) (c : Chain) (site : Site)
    (key : Option RandomKey) (feeds : c.Throughout (Feeds U I) site key t) :
    Warmed U I s (c.draw site key t).2
  /-- Something has happened elsewhere. -/
  | elsewhere {t u : Shared} (before : Warmed U I s t)
    (same : ∀ i, I i → u.cache i = t.cache i) : Warmed U I s u

/-- **Caches stay honest** whatever happens to them. -/
theorem Shared.Warmed.honest (hU : Distinguished U) (h : s.Warmed U I t)
    (hs : s.Honest U I) : t.Honest U I := by
  induction h with
  | refl => exact hs
  | draw _ c site key feeds ih => exact c.honest_draw hU feeds ih
  | elsewhere _ same ih => exact ih.of_eq same

end Feeding

end Resampler
