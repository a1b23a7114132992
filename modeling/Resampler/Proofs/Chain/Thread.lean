import Mathlib.Data.List.Nodup
import Resampler.Proofs.Chain.Sequence
import Resampler.Proofs.Random.Path

/-!
# A thread issues its keys in order

A thread gives the deeper half of the key that it holds to a draw that needs one, and goes on
with the incremented half. It may be linked in many chains, and in one chain more than once,
on its branches, so a draw may come to it again on its way down; and it lets draws pass that are
observations or have a key already, unless it is forced on them. What it issues does not
depend on any of that. `Chain.visits` lists the draws as they come to it, and counted along this
list the keys are those of one fixed sequence (`Shared.issuesInOrder`).

What answers below the thread has no part in this either: the thread has gone on before it
hands a draw on, so a draw that fails has consumed its key like any other.
-/

namespace Resampler

namespace Handler

variable {id j : Nat} {h : Handler} {name : String} {s t : Shared}

/-- Nobody writes to the key of another thread. -/
theorem Writes.heldKey_of_other (hw : h.Writes id name s t)
    (hne : ∀ force, h = .thread force → id ≠ j) : t.heldKey j = s.heldKey j := by
  cases hw with
  | keep _ hk =>
    obtain ⟨st, files, rfl⟩ := Shared.keep_ok hk
    rfl
  | hold force _ _ k => rw [Shared.heldKey_hold, if_neg (hne force rfl)]
  | _ => rfl

/-- **A thread writes to its key on the way down only.** -/
theorem heldKey_takesBack (id j : Nat) (h : Handler) (site : Site) (key : Option RandomKey)
    (out : Reply × Shared) : (h.takesBack id site key out).2.heldKey j = out.2.heldKey j := by
  by_cases hthread : ∃ force, h = .thread force
  · obtain ⟨force, rfl⟩ := hthread
    rfl
  · exact (takesBack_cases id h site key out).2.heldKey_of_other fun force hf =>
      absurd ⟨force, hf⟩ hthread

/-- A draw that is not handed on leaves all held keys as they are. -/
theorem heldKey_of_kept {site : Site} {key : Option RandomKey} (next : Answerer)
    (hx : h.handsOn id site key s = none) :
    (h.draw id next site key s).2.heldKey j = s.heldKey j := by
  rcases state_of_kept hx next with he | ⟨_, k, -, -, -, he | he⟩
  all_goals exact congrArg (fun t => t.heldKey j) he

end Handler

/-! ## The draws that come to a thread -/

/-- **A draw as it comes to a thread.** -/
structure Visit extends Handed where
  /-- Whether the thread is forced on draws that have a key. -/
  force : Bool
  /-- The chain below the thread. -/
  below : Chain

namespace Visit

/-- **Whether the draw consumes a key** of the thread: it is no observation, and it has no key
or the thread is forced on it. -/
def consumes (v : Visit) : Bool := v.site.observed.isNone && (v.key.isNone || v.force)

/-- What the thread hands on. -/
def handed? (i : Nat) (v : Visit) : Option Handed :=
  (Handler.thread v.force).handsOn i v.site v.key v.state

/-- **The key that is issued to the draw**, if it consumes one. -/
def issued? (i : Nat) (v : Visit) : Option RandomKey :=
  if v.consumes then (v.handed? i).bind Handed.key else none

/-- The key that the thread holds when it hands the draw on, if it held `k` before. -/
def keyAfter (v : Visit) (k : RandomKey) : RandomKey := if v.consumes then k.incremented else k

variable {i : Nat} {v : Visit}

theorem passes_iff : (v.site.observed.isSome || (v.key.isSome && !v.force)) = true
    ↔ v.consumes = false := by
  unfold consumes
  cases v.site.observed <;> cases v.key <;> cases v.force <;> simp

/-- A draw that consumes is handed on with the deeper half of what the thread holds. -/
theorem handed?_of_consumes (h : v.consumes = true) :
    v.handed? i = some ⟨v.site, some (v.state.heldKey i).deeper,
      v.state.hold i (v.state.heldKey i).incremented⟩ :=
  if_neg fun hpass => Bool.noConfusion (h.symm.trans (passes_iff.mp hpass))

/-- A draw that does not is handed on as it came. -/
theorem handed?_of_not_consumes (h : v.consumes = false) : v.handed? i = some v.toHanded :=
  if_pos (passes_iff.mpr h)

theorem issued?_of_consumes (h : v.consumes = true) :
    v.issued? i = some (v.state.heldKey i).deeper := by
  rw [issued?, if_pos h, handed?_of_consumes h]
  rfl

theorem issued?_of_not_consumes (h : v.consumes = false) : v.issued? i = none :=
  if_neg (Bool.eq_false_iff.mp h)

/-- **A thread hands on every draw that comes to it.** -/
theorem exists_handed (i : Nat) (v : Visit) :
    ∃ x, v.handed? i = some x ∧ x.state.heldKey i = v.keyAfter (v.state.heldKey i) := by
  unfold keyAfter
  cases h : v.consumes with
  | true => exact ⟨_, handed?_of_consumes h, (Shared.heldKey_hold ..).trans (if_pos rfl)⟩
  | false => exact ⟨_, handed?_of_not_consumes h, rfl⟩

end Visit

/-- The draw as it comes to a thread, if it comes to it here. -/
def Handler.visit? (i id : Nat) (h : Handler) (x : Handed) (rest : Chain) : Option Visit :=
  match h with
  | .thread force => if id = i then some ⟨x, force, rest⟩ else none
  | _ => none

theorem Handler.visit?_thread {i : Nat} {force : Bool} {x : Handed} {rest : Chain} :
    (Handler.thread force).visit? i i x rest = some ⟨x, force, rest⟩ := if_pos rfl

theorem Handler.visit?_eq_none {i id : Nat} {h : Handler} {x : Handed} {rest : Chain}
    (hne : ∀ force, h = .thread force → id ≠ i) : h.visit? i id x rest = none := by
  cases h with
  | thread force => exact if_neg (hne force rfl)
  | _ => rfl

/-- **The draws that come to a thread** on account of one that is asked of a chain, in
order. -/
def Chain.visits (i : Nat) : Chain → Site → Option RandomKey → Shared → List Visit
  | .empty, _, _, _ => []
  | .link id h rest, site, key, s =>
    (h.visit? i id ⟨site, key, s⟩ rest).toList
      ++ match h.handsOn id site key s with
        | some x => rest.visits i x.site x.key x.state
        | none => []
  | .branch _ selects alternate rest, site, key, s =>
    if selects site.name site.distribution then alternate.visits i site key s
    else rest.visits i site key s

/-- **The draws that come to a thread** on account of a sequence of draws. -/
def Shared.visits (i : Nat) : Shared → List Request → List Visit
  | _, [] => []
  | s, d :: rest => d.chain.visits i d.site d.key s ++ (d.outcome s).2.visits i rest

namespace Chain

variable {i : Nat}

theorem visits_link (id : Nat) (h : Handler) (rest : Chain) (site : Site)
    (key : Option RandomKey) (s : Shared) : (link id h rest).visits i site key s
      = (h.visit? i id ⟨site, key, s⟩ rest).toList
        ++ ((h.handsOn id site key s).map fun x => rest.visits i x.site x.key x.state).getD [] := by
  rw [visits]
  cases h.handsOn id site key s <;> rfl

/-- Where a draw comes to a thread, it is on a list. -/
def OnList (i : Nat) (vs : List Visit) : Chain → Site → Option RandomKey → Shared → Prop
  | .link id (.thread force) rest, site, key, s => id = i → ⟨⟨site, key, s⟩, force, rest⟩ ∈ vs
  | _, _, _, _ => True

theorem OnList.mono {vs ws : List Visit} (hvs : ∀ v ∈ vs, v ∈ ws) {c : Chain} {site : Site}
    {key : Option RandomKey} {s : Shared} (h : c.OnList i vs site key s) :
    c.OnList i ws site key s := by
  unfold OnList at h ⊢
  split
  · exact fun he => hvs _ (h he)
  · trivial

/-- **Wherever a draw comes to a thread, it is among the visits.** -/
theorem throughout_onList (c : Chain) (site : Site) (key : Option RandomKey) (s : Shared) :
    c.Throughout (OnList i (c.visits i site key s)) site key s := by
  induction c generalizing site key s with
  | empty => trivial
  | link id h rest ih =>
    refine ⟨?_, fun x hx => (ih x.site x.key x.state).mono (OnList.mono fun v hv => ?_)⟩
    · unfold OnList
      split
      · next he =>
        cases he
        rintro rfl
        rw [visits_link, Handler.visit?_thread]
        exact List.mem_append_left _ (List.mem_singleton_self _)
      · trivial
    · rw [visits_link, hx]
      exact List.mem_append_right _ hv
  | branch id selects alternate rest iha ihr =>
    refine ⟨trivial, fun hb => ?_, fun hb => ?_⟩
    all_goals
      unfold visits
      rw [hb]
    · exact iha site key s
    · exact ihr site key s

end Chain

theorem Shared.visits_append (i : Nat) (s : Shared) (draws more : List Request) :
    s.visits i (draws ++ more) = s.visits i draws ++ (s.after draws).visits i more := by
  induction draws generalizing s with
  | nil => rfl
  | cons d rest ih =>
    rw [List.cons_append, visits, ih, visits, List.append_assoc]
    rfl

/-! ## The keys along the visits -/

/-- **Visits in a row**: each finds the thread with the key that the one before has left. -/
inductive Visit.InRow (i : Nat) : RandomKey → List Visit → RandomKey → Prop where
  | nil (k : RandomKey) : InRow i k [] k
  | cons {k k' : RandomKey} {v : Visit} {rest : List Visit} (held : v.state.heldKey i = k)
    (goes : InRow i (v.keyAfter k) rest k') : InRow i k (v :: rest) k'

namespace Visit

variable {i : Nat} {k k' k'' : RandomKey} {v : Visit} {vs ws : List Visit}

/-- What the next visits are counted from. -/
theorem iterate_keyAfter (k : RandomKey) (v : Visit) (vs : List Visit) :
    RandomKey.incremented^[vs.countP consumes] (v.keyAfter k)
      = RandomKey.incremented^[(v :: vs).countP consumes] k := by
  unfold keyAfter
  cases h : v.consumes with
  | true => rw [List.countP_cons_of_pos h, Function.iterate_succ_apply, if_pos rfl]
  | false => rw [List.countP_cons_of_neg (Bool.eq_false_iff.mp h), if_neg Bool.false_ne_true]

namespace InRow

theorem append (h : InRow i k vs k') (h' : InRow i k' ws k'') : InRow i k (vs ++ ws) k'' := by
  induction h with
  | nil _ => exact h'
  | cons held _ ih => exact .cons held (ih h')

/-- **What the thread holds in the end** counts the visits that have consumed. -/
theorem last (h : InRow i k vs k') : k' = RandomKey.incremented^[vs.countP consumes] k := by
  induction h with
  | nil _ => rfl
  | cons _ _ ih => rw [ih, iterate_keyAfter]

/-- **What a visit finds** counts those before that have consumed. -/
theorem held {before after : List Visit} (h : InRow i k (before ++ v :: after) k') :
    v.state.heldKey i = RandomKey.incremented^[before.countP consumes] k := by
  induction before generalizing k with
  | nil =>
    cases h with
    | cons held _ => exact held
  | cons b before ih =>
    cases h with
    | cons _ goes => rw [ih goes, iterate_keyAfter]

/-- **The keys that are issued** are the deeper halves, one after the other. -/
theorem issued (h : InRow i k vs k') : vs.filterMap (issued? i)
    = (List.range (vs.countP consumes)).map fun j => (RandomKey.incremented^[j] k).deeper := by
  induction h with
  | nil _ => rfl
  | @cons k k' v rest held _ ih =>
    cases hc : v.consumes with
    | true =>
      have hafter : v.keyAfter k = k.incremented := if_pos hc
      rw [List.filterMap_cons_some (issued?_of_consumes hc), List.countP_cons_of_pos hc, held, ih,
        List.range_succ_eq_map, List.map_cons, List.map_map, hafter]
      rfl
    | false =>
      have hafter : v.keyAfter k = k := if_neg (Bool.eq_false_iff.mp hc)
      rw [List.filterMap_cons_none (issued?_of_not_consumes hc),
        List.countP_cons_of_neg (Bool.eq_false_iff.mp hc), ih, hafter]

end InRow

end Visit

/-- **One draw.** Its visits are in a row, from what the thread holds before to what it holds
afterwards. -/
theorem Chain.inRow_visits (i : Nat) (c : Chain) (site : Site) (key : Option RandomKey)
    (s : Shared) : Visit.InRow i (s.heldKey i) (c.visits i site key s)
      ((c.draw site key s).2.heldKey i) := by
  induction c generalizing site key s with
  | empty => exact .nil _
  | branch id selects alternate rest iha ihr =>
    unfold visits
    cases hb : selects site.name site.distribution with
    | true =>
      rw [draw_branch_of_selects hb]
      exact iha site key s
    | false =>
      rw [draw_branch_of_not_selects hb]
      exact ihr site key s
  | link id h rest ih =>
    rw [draw_link, visits_link]
    by_cases hthread : ∃ force, h = .thread force ∧ id = i
    · -- The thread itself is visited, and what it hands on is visited after that.
      obtain ⟨force, rfl, rfl⟩ := hthread
      obtain ⟨x, hx, hheld⟩ := Visit.exists_handed id ⟨⟨site, key, s⟩, force, rest⟩
      change (Handler.thread force).handsOn id site key s = some x at hx
      rw [Handler.draw_of_handed hx, Handler.heldKey_takesBack, Handler.visit?_thread, hx]
      exact .cons rfl (hheld ▸ ih x.site x.key x.state)
    · have hother : ∀ force, h = .thread force → id ≠ i := fun force hf he =>
        hthread ⟨force, hf, he⟩
      rw [Handler.visit?_eq_none hother]
      cases hx : h.handsOn id site key s with
      | none =>
        rw [Handler.heldKey_of_kept rest.draw hx]
        exact .nil _
      | some x =>
        rw [Handler.draw_of_handed hx, Handler.heldKey_takesBack,
          ← Handler.heldKey_of_handed hx hother]
        exact ih x.site x.key x.state

/-- **A sequence of draws.** -/
theorem Shared.inRow_visits (i : Nat) (s : Shared) (draws : List Request) :
    Visit.InRow i (s.heldKey i) (s.visits i draws) ((s.after draws).heldKey i) := by
  induction draws generalizing s with
  | nil => exact .nil _
  | cons d rest ih => exact (d.chain.inRow_visits i d.site d.key s).append (ih _)

/-! ## The sequence that is issued -/

/-- **What becomes of a draw that comes to a thread**, which holds a key `k` at the time,
whoever is next. -/
structure Visit.IsServed (i : Nat) (k : RandomKey) (v : Visit) : Prop where
  held : v.state.heldKey i = k
  /-- If it consumes, it is passed down with the deeper half, the other one being held then. -/
  consuming : v.consumes = true → ∀ next,
    Handler.drawThread i v.force next v.site v.key v.state
      = next v.site (some k.deeper) (v.state.hold i k.incremented)
  /-- If it does not, it is passed down as it came. -/
  passing : v.consumes = false → ∀ next,
    Handler.drawThread i v.force next v.site v.key v.state = next v.site v.key v.state

theorem Visit.isServed {i : Nat} {k : RandomKey} {v : Visit} (held : v.state.heldKey i = k) :
    v.IsServed i k where
  held := held
  consuming h next := by
    subst held
    exact Handler.draw_of_handed (handed?_of_consumes h)
  passing h _ := Handler.draw_of_handed (handed?_of_not_consumes h)

/-- **A thread that starts with a key issues a fixed sequence** to some draws. -/
structure Shared.IssuesInOrder (i : Nat) (k : RandomKey) (s : Shared) (draws : List Request) :
    Prop where
  /-- Wherever a draw comes to the thread, it is among the visits. -/
  complete : ∀ before d after, draws = before ++ d :: after →
    d.chain.Throughout (Chain.OnList i (s.visits i draws)) d.site d.key (s.after before)
  /-- Whenever a draw comes to it, the thread holds its key incremented as often as draws have
  consumed, and serves the draw with that. -/
  serves : ∀ before v after, s.visits i draws = before ++ v :: after →
    v.IsServed i (RandomKey.incremented^[before.countP Visit.consumes] k)
  /-- So it does after the draws, whatever they came to. -/
  held : (s.after draws).heldKey i
    = RandomKey.incremented^[(s.visits i draws).countP Visit.consumes] k
  /-- In order, it has issued the deeper halves of the keys that it has held. -/
  issued : (s.visits i draws).filterMap (Visit.issued? i)
    = (List.range ((s.visits i draws).countP Visit.consumes)).map
      fun j => (RandomKey.incremented^[j] k).deeper
  /-- They are all different. -/
  distinct : ((s.visits i draws).filterMap (Visit.issued? i)).Nodup
  /-- None is ever held, and each is one deeper than the first that was held. -/
  below : ∀ key ∈ (s.visits i draws).filterMap (Visit.issued? i),
    (∀ n, key ≠ RandomKey.incremented^[n] k) ∧ key.depth = k.depth + 1

/-- **A thread issues its keys in order**, whatever draws come to it, through whatever chains,
and whatever becomes of them. -/
theorem Shared.issuesInOrder (i : Nat) (k : RandomKey) (s : Shared) (draws : List Request) :
    (s.hold i k).IssuesInOrder i k draws := by
  have hrow : Visit.InRow i k ((s.hold i k).visits i draws)
      (((s.hold i k).after draws).heldKey i) := by
    have hrow := (s.hold i k).inRow_visits i draws
    rwa [heldKey_hold, if_pos rfl] at hrow
  have hdepth : ∀ n, (RandomKey.incremented^[n] k).depth = k.depth :=
    k.depth_iterate_incremented
  refine ⟨fun before d after hsplit => ?_,
    fun before v after hsplit => Visit.isServed (hsplit ▸ hrow).held, hrow.last, hrow.issued,
    ?_, ?_⟩
  · subst hsplit
    refine (d.chain.throughout_onList d.site d.key _).mono (Chain.OnList.mono fun v hv => ?_)
    rw [visits_append]
    exact List.mem_append_right _ (List.mem_append_left _ hv)
  · rw [hrow.issued]
    exact List.Nodup.map (RandomKey.deeper_injective.comp k.iterate_incremented_injective)
      List.nodup_range
  · rw [hrow.issued]
    intro key hkey
    obtain ⟨j, -, rfl⟩ := List.mem_map.mp hkey
    refine ⟨fun n he => ?_, by rw [RandomKey.depth_deeper, hdepth]⟩
    have hboth := congrArg RandomKey.depth he
    rw [RandomKey.depth_deeper, hdepth, hdepth] at hboth
    exact Nat.succ_ne_self _ hboth

/-- An observation and a draw with a key pass, and a draw that fails has consumed its key. -/
example :
    let c : Chain := .link 0 (.thread false) (.link 1 (.standard false) .empty)
    let d : Distribution := .constant .null .null
    (((Shared.start "").hold 0 .root).visits 0
      [⟨c, .drawn "x" (.fallible "no"), none⟩, ⟨c, .seen "y" d .null, none⟩,
        ⟨c, .drawn "z" d, some .root⟩, ⟨c, .drawn "x" d, none⟩]).map (Visit.issued? 0)
      = [some (.under (.top 0) 0), none, none, some (.under (.top 1) 0)] := rfl

end Resampler
