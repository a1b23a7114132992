import Resampler.Proofs.Chain.Upon
import Resampler.Proofs.Program.Simulation
import Resampler.Proofs.Sampler.Prior

/-!
# A unit asks an oracle

The chain of a unit has five interpreters and a branch, each with a memory of
its own. What they come to together is simple. An observation is answered with
its own value, a site of the trace with its value there, and the site that is
resampled by its local posterior under one key. All other sites are drawn from
their own distributions, one after the other, under the keys of one thread, and
no site is answered twice. Only a program that gives its draws keys of its own
is answered under those.

That is the oracle of a unit (`WorkUnit.oracle`). It remembers what has been
visited and nothing else: how many keys have been given away can be read off
there. A unit that executes its program against the oracle
(`WorkUnit.consult`) comes to the same as one that executes it over the chain.
-/

namespace Resampler

/-- The sibling of a key that comes so many places later. -/
def RandomKey.later (k : RandomKey) : Nat → RandomKey
  | 0 => k
  | j + 1 => (k.later j).incremented

/-- Answer a draw with all of the chain replaced from one recorder on, unless the
token is cancelled. -/
def Context.drawUpon (i : Nat) (f : Answerer) (c : Context) (site : Site) (s : Shared) :
    Reply × Shared :=
  if s.isCancelled c.token then (.failure .cancelled, s)
  else c.chain.drawUpon i f site none s

namespace WorkUnit

/-! ## The oracle -/

/-- **A unit for a trace** holds fixed all sites of the trace but its own. -/
def Fixes (u : WorkUnit) (t : Trace) : Prop :=
  u.fixed = t.assignment.filterKeys fun name => !decide (name = u.site)

/-- The value of a site that is not to be drawn. -/
def given (u : WorkUnit) (t : Trace) (name : String) : Option Json :=
  if name = u.site then none else (t.get? name).map fun node => node.value

/-- Whether a visited site has been drawn under a key of the thread: it is not an
observation, not the site of the unit and not in the trace, and came without a
key. -/
def isFresh (u : WorkUnit) (t : Trace) (e : String × TraceNode) : Bool :=
  !e.2.observed && e.2.key.isNone && !decide (e.1 = u.site) && !t.contains e.1

/-- **Which distribution is asked, and under which key**: the posterior for the
site of the unit, and for others their own, under the next key of the thread. A
key that comes with the draw takes precedence. -/
def question (u : WorkUnit) (t visited : Trace) (site : Site) (key : Option RandomKey) :
    Site × RandomKey :=
  if site.name = u.site then
    ({ site with distribution := u.posterior }, key.getD u.key.deeper.deeper)
  else
    (site, key.getD
      (u.key.incremented.deeper.later (visited.entries.countP (u.isFresh t))).deeper)

/-- Ask a distribution under a key, and note that. -/
def put (question : Site × RandomKey) (s : Shared) : Reply × Shared :=
  (question.1.ask question.2, s.noteAsked question.1 question.2)

/-- What is told of a site that has not been visited. -/
def tell (u : WorkUnit) (t visited : Trace) : Answerer := fun site key s =>
  match site.observed, u.given t site.name with
  | some v, _ => (.value v, s)
  | none, some v => (.value v, s)
  | none, none => put (u.question t visited site key) s

/-- **The oracle of a unit**, which keeps under a number what has been visited. -/
def oracle (u : WorkUnit) (t : Trace) (i : Nat) : Answerer := fun site key s =>
  if (s.trace i).contains site.name then (.failure (.duplicateSite site.name), s)
  else
    onValue (u.tell t (s.trace i) site key s) fun v s =>
      (.value v, s.setTrace i ((s.trace i).insert site.name (site.node key v)))

/-- The execution of a unit against its oracle: how the program ended, and the state
it left. No thread holds a key for it. -/
def consultation {σ : Type} (u : WorkUnit) (t : Trace) (job : Job σ) (index : Nat)
    (s : Shared) : Ending σ × Shared :=
  (u.program job index s.next).runBy
    (Context.drawUpon (s.next + 5) (u.oracle t (s.next + 5)))
    ({ s with next := s.next + 6 }.setTrace (s.next + 5) .empty)

/-- **Resample the site against the oracle.** What comes back are the visited sites
that are not in the trace, and the site itself. -/
def consult {σ : Type} (u : WorkUnit) (t : Trace) (job : Job σ) (index : Nat)
    (s : Shared) : Except Error Trace × Shared :=
  let out := u.consultation t job index s
  let visited := out.2.trace (s.next + 5)
  match out.1.1 with
  | .value () => (.ok (visited.filterKeys fun name =>
      decide (name = u.site) || !t.contains name), clear s.next out.2)
  | .failure e => (.error e, clear s.next out.2)
  | .panic payload => (.error (.panicked (panicText payload)), clear s.next out.2)

/-! ## The chain and the oracle -/

/-- The cells of all threads but those of a unit. -/
def visible (n id : Nat) : Bool := !decide (id = n + 1 ∨ id = n + 2)

/-- **The threads of a unit hold the keys that the oracle knows**: as many have
been given away as sites were drawn under them, and the site has its key until
it is recorded. -/
structure Keyed (u : WorkUnit) (t : Trace) (n : Nat) (s : Shared) : Prop where
  thread : s.heldKey (n + 2)
    = u.programKey.later ((s.trace (n + 5)).entries.countP (u.isFresh t))
  site : (s.trace (n + 5)).contains u.site = false → s.heldKey (n + 1) = u.siteKey

variable {u : WorkUnit} {t : Trace} {n b : Nat}

/-- What is held fixed for the unit is what is given. -/
theorem Fixes.get?_fixed (h : u.Fixes t) (name : String) :
    u.fixed.get? name = u.given t name := by
  rw [show u.fixed = _ from h, OrderedMap.get?_filterKeys, given]
  unfold Trace.assignment
  rw [OrderedMap.get?_map]
  by_cases hn : name = u.site
  · simp [hn]
  · simp [hn]

theorem Fixes.contains_fixed (h : u.Fixes t) (name : String) :
    (!u.fixed.contains name) = (decide (name = u.site) || !t.contains name) := by
  rw [OrderedMap.contains, h.get?_fixed, given]
  by_cases hn : name = u.site
  · simp [hn]
  · simp [hn, OrderedMap.contains]

/-- **A site that is recorded keeps the keys in step**, if the thread has given one
away just for a fresh site, and the site's own has been left to the site. -/
theorem keyed_setTrace {s s' : Shared} {site : Site} {key : Option RandomKey} {v : Json}
    (hnew : (s.trace (n + 5)).contains site.name = false)
    (hthread : s'.heldKey (n + 2) = u.programKey.later
      ((s.trace (n + 5)).entries.countP (u.isFresh t)
        + if u.isFresh t (site.name, site.node key v) then 1 else 0))
    (hsite : site.name ≠ u.site → (s.trace (n + 5)).contains u.site = false →
      s'.heldKey (n + 1) = u.siteKey) :
    u.Keyed t n
      (s'.setTrace (n + 5) ((s.trace (n + 5)).insert site.name (site.node key v))) := by
  constructor
  · rw [Shared.trace_setTrace, if_pos rfl, OrderedMap.entries_insert hnew, List.countP_append,
      List.countP_singleton]
    exact hthread
  · rw [Shared.trace_setTrace, if_pos rfl, OrderedMap.contains, OrderedMap.get?_insert]
    by_cases hname : site.name = u.site
    · rw [if_pos hname]
      exact fun h => Bool.noConfusion h
    · rw [if_neg hname]
      exact hsite hname

/-- **What is told of a site**, under the recorder of the chain and by the oracle. -/
structure Tells (u : WorkUnit) (t : Trace) (n : Nat) (site : Site) (key : Option RandomKey)
    (s : Shared) (out out' : Reply × Shared) : Prop where
  reply : out'.1 = out.1
  like : Shared.Like (visible n) out.2 out'.2
  trace : out.2.trace (n + 5) = s.trace (n + 5)
  again : ∀ v, out.1 = .value v → u.Keyed t n
    (out.2.setTrace (n + 5) ((s.trace (n + 5)).insert site.name (site.node key v)))

section

variable {site : Site} {key : Option RandomKey} {s s' : Shared}

/-- An observation goes down the chain and is answered at the end. -/
theorem covered_of_seen {v : Json} (ho : site.observed = some v) :
    (u.covered (.link b (.standard false) .empty) n).draw site key s = (.value v, s) := by
  simp only [covered, alternate, Chain.draw, Handler.draw, Handler.drawCondition,
    Handler.drawThread, Handler.drawStandard, ho, Option.isSome_some, Bool.true_or, if_true]
  split <;> rfl

/-- What is held fixed is answered by the condition. -/
theorem covered_of_fixed {v : Json} (ho : site.observed = none)
    (hv : u.fixed.get? site.name = some v) :
    (u.covered (.link b (.standard false) .empty) n).draw site key s = (.value v, s) := by
  simp only [covered, Chain.draw, Handler.draw, Handler.drawCondition, ho, hv]

/-- The site of the unit is drawn on the branch. -/
theorem covered_of_site (ho : site.observed = none) (hv : u.fixed.get? site.name = none)
    (hname : site.name = u.site) :
    (u.covered (.link b (.standard false) .empty) n).draw site key s
      = let asked : Site := { site with distribution := u.posterior }
        let k := key.getD (s.heldKey (n + 1)).deeper
        (asked.ask k, (if key.isSome then s
          else s.hold (n + 1) (s.heldKey (n + 1)).incremented).noteAsked asked k) := by
  have hsel : selectSite u.site site.name site.distribution = true := decide_eq_true hname
  cases key with
  | some k =>
    simp [covered, alternate, Chain.draw, Handler.draw, Handler.drawCondition,
      Handler.drawThread, Handler.drawStandard, ho, hv, hsel]
  | none =>
    simp [covered, alternate, Chain.draw, Handler.draw, Handler.drawCondition,
      Handler.drawThread, Handler.drawStandard, ho, hv, hsel]

/-- All other sites are drawn under the thread. -/
theorem covered_of_other (ho : site.observed = none) (hv : u.fixed.get? site.name = none)
    (hname : site.name ≠ u.site) :
    (u.covered (.link b (.standard false) .empty) n).draw site key s
      = let k := key.getD (s.heldKey (n + 2)).deeper
        (site.ask k, (if key.isSome then s
          else s.hold (n + 2) (s.heldKey (n + 2)).incremented).noteAsked site k) := by
  have hsel : selectSite u.site site.name site.distribution = false := decide_eq_false hname
  cases key with
  | some k =>
    simp [covered, Chain.draw, Handler.draw, Handler.drawCondition,
      Handler.drawThread, Handler.drawStandard, ho, hv, hsel]
  | none =>
    simp [covered, Chain.draw, Handler.draw, Handler.drawCondition,
      Handler.drawThread, Handler.drawStandard, ho, hv, hsel]

/-- An answer that leaves the state alone, to a site that is not fresh. -/
theorem tells_of_value {v : Json} (hlike : Shared.Like (visible n) s s') (hJ : u.Keyed t n s)
    (hnew : (s.trace (n + 5)).contains site.name = false)
    (hold : u.isFresh t (site.name, site.node key v) = false) :
    u.Tells t n site key s (.value v, s) (.value v, s') := by
  refine ⟨rfl, hlike, rfl, fun w hw => ?_⟩
  cases hw
  refine keyed_setTrace hnew ?_ fun _ => hJ.site
  rw [hold, if_neg Bool.false_ne_true]
  exact hJ.thread

/-- The chain draws the site of the unit under the key that the oracle knows. -/
theorem tells_of_site (hlike : Shared.Like (visible n) s s') (hJ : u.Keyed t n s)
    (hnew : (s.trace (n + 5)).contains site.name = false) (ho : site.observed = none)
    (hv : u.fixed.get? site.name = none) (hname : site.name = u.site) :
    u.Tells t n site key s
      ((u.covered (.link b (.standard false) .empty) n).draw site key s)
      (put (u.question t (s.trace (n + 5)) site key) s') := by
  have hheld : s.heldKey (n + 1) = u.key.deeper := hJ.site (hname ▸ hnew)
  have hold : ∀ v, u.isFresh t (site.name, site.node key v) = false := by
    simp [isFresh, hname]
  rw [covered_of_site ho hv hname, question, if_pos hname, hheld]
  refine ⟨rfl, ?_, ?_, fun v _ => keyed_setTrace hnew ?_ fun hne => absurd hname hne⟩
  · cases key with
    | some k => exact hlike.noteAsked _ _
    | none => exact (hlike.hold_hidden (by simp [visible]) _).noteAsked _ _
  · cases key <;> rfl
  · rw [hold, if_neg Bool.false_ne_true]
    cases key with
    | some k => exact hJ.thread
    | none =>
      show (Shared.hold _ _ _).heldKey (n + 2) = _
      rw [Shared.heldKey_hold, if_neg (by omega)]
      exact hJ.thread

/-- The chain draws any other site under the next key that the oracle knows. -/
theorem tells_of_other (hlike : Shared.Like (visible n) s s') (hJ : u.Keyed t n s)
    (hnew : (s.trace (n + 5)).contains site.name = false) (ho : site.observed = none)
    (hv : u.fixed.get? site.name = none) (hname : site.name ≠ u.site)
    (hmissing : t.contains site.name = false) :
    u.Tells t n site key s
      ((u.covered (.link b (.standard false) .empty) n).draw site key s)
      (put (u.question t (s.trace (n + 5)) site key) s') := by
  have hheld : s.heldKey (n + 2) = _ := hJ.thread
  have hfresh : ∀ v, u.isFresh t (site.name, site.node key v) = key.isNone := by
    simp [isFresh, Site.node, ho, hname, hmissing]
  rw [covered_of_other ho hv hname, question, if_neg hname, hheld]
  refine ⟨rfl, ?_, ?_, fun v _ => keyed_setTrace hnew ?_ fun _ hc => ?_⟩
  · cases key with
    | some k => exact hlike.noteAsked _ _
    | none => exact (hlike.hold_hidden (by simp [visible]) _).noteAsked _ _
  · cases key <;> rfl
  · rw [hfresh]
    cases key with
    | some k => exact hJ.thread
    | none =>
      show (Shared.hold _ _ _).heldKey (n + 2) = _
      rw [Shared.heldKey_hold, if_pos rfl]
      rfl
  · cases key with
    | some k => exact hJ.site hc
    | none =>
      show (Shared.hold _ _ _).heldKey (n + 1) = _
      rw [Shared.heldKey_hold, if_neg (by omega)]
      exact hJ.site hc

/-- **The chain tells of a site what the oracle tells of it.** -/
theorem tells_covered (hfix : u.Fixes t) (hlike : Shared.Like (visible n) s s')
    (hJ : u.Keyed t n s) (hnew : (s.trace (n + 5)).contains site.name = false) :
    u.Tells t n site key s
      ((u.covered (.link b (.standard false) .empty) n).draw site key s)
      (u.tell t (s.trace (n + 5)) site key s') := by
  have hmissing := hfix.contains_fixed site.name
  unfold tell
  cases ho : site.observed with
  | some v =>
    rw [covered_of_seen ho]
    exact tells_of_value hlike hJ hnew (by simp [isFresh, Site.node, ho])
  | none =>
    rw [OrderedMap.contains, hfix.get?_fixed] at hmissing
    cases hv : u.given t site.name with
    | some v =>
      rw [covered_of_fixed ho ((hfix.get?_fixed _).trans hv)]
      rw [hv] at hmissing
      exact tells_of_value hlike hJ hnew (by simp_all [isFresh])
    | none =>
      have hfree := (hfix.get?_fixed _).trans hv
      rw [hv] at hmissing
      by_cases hname : site.name = u.site
      · exact tells_of_site hlike hJ hnew ho hfree hname
      · exact tells_of_other hlike hJ hnew ho hfree hname (by simpa [hname] using hmissing)

end

/-- **The chain of a unit agrees with its oracle.** -/
theorem agrees_chain (hfix : u.Fixes t) :
    Agrees (visible n) (u.Keyed t n) (u.chain (.link b (.standard false) .empty) n).draw
      (u.oracle t (n + 5)) := by
  intro site key s s' hlike hJ
  rw [chain_eq]
  show Agree _ _ (Handler.drawRecorder (n + 5) _ site key s) _
  unfold Handler.drawRecorder oracle
  rw [hlike.trace]
  by_cases hc : (s.trace (n + 5)).contains site.name = true
  · -- Neither answers a site again.
    rw [if_pos hc, if_pos hc]
    exact ⟨rfl, hlike, nofun⟩
  · rw [if_neg hc, if_neg hc]
    have told : u.Tells t n site key s
        ((u.covered (.link b (.standard false) .empty) n).draw site key s)
        (u.tell t (s.trace (n + 5)) site key s') :=
      tells_covered hfix hlike hJ (Bool.eq_false_iff.mpr hc)
    generalize (u.covered (.link b (.standard false) .empty) n).draw site key s = out
      at told ⊢
    generalize u.tell t (s.trace (n + 5)) site key s' = out' at told ⊢
    obtain ⟨reply, s₁⟩ := out
    obtain ⟨reply', s₁'⟩ := out'
    obtain ⟨hreply, hlike₁, htrace, hagain⟩ := told
    change reply' = reply at hreply
    subst hreply
    cases reply' with
    | failure e => exact ⟨rfl, hlike₁, nofun⟩
    | panic payload => exact ⟨rfl, hlike₁, nofun⟩
    | value v =>
      change s₁.trace (n + 5) = s.trace (n + 5) at htrace
      have htrace' := (hlike₁.trace (n + 5)).trans htrace
      dsimp only [onValue]
      rw [htrace, htrace', if_neg hc]
      exact ⟨rfl, hlike₁.setTrace (n + 5) _, fun _ _ => hagain v rfl⟩

/-- A draw through the chain of the unit goes straight to what stands in its place. -/
@[simp] theorem drawUpon_chain (base : Chain) (f : Answerer) :
    (u.chain base n).drawUpon (n + 5) f = f :=
  if_pos rfl

/-- Instances that spare the chain of a unit leave its keys and its trace alone. -/
theorem leaves_of_spares {base : Chain} {id : Nat} {h : Handler}
    (hs : (u.chain base n).Spares id h) :
    h.Leaves (visible n) (u.Keyed t n) id ∧ (h = .recorder → id ≠ n + 5) := by
  have hrec : n + 5 ∈ (u.chain base n).numbers := List.mem_cons_self
  have hsite : n + 1 ∈ (u.chain base n).numbers := by
    simp [chain, alternate, Chain.numbers]
  have hthr : n + 2 ∈ (u.chain base n).numbers := by
    simp [chain, Chain.numbers]
  refine ⟨⟨fun force hf => ?_, fun hw hJ => ⟨?_, ?_⟩, fun _ _ _ hJ => ?_⟩, ?_⟩
  · have hfree := hs (.inr ⟨force, hf⟩)
    have hne₁ : id ≠ n + 1 := fun he => hfree (he ▸ hsite)
    have hne₂ : id ≠ n + 2 := fun he => hfree (he ▸ hthr)
    simp [visible, hne₁, hne₂]
  · rw [(hw.of_spares hs hrec).1, (hw.of_spares hs hthr).2]
    exact hJ.thread
  · rw [(hw.of_spares hs hrec).1, (hw.of_spares hs hsite).2]
    exact hJ.site
  · exact ⟨⟨hJ.thread, hJ.site⟩, ⟨hJ.thread, hJ.site⟩⟩
  · exact fun hr he => hs (.inl hr) (he ▸ hrec)

/-! ## The execution -/

theorem isSteady_like (visible : Nat → Bool) : Program.IsSteady (Shared.Like visible) where
  installed := by
    rintro s s' ⟨held, rfl, -⟩
    rfl
  install := by
    rintro s s' id ⟨held, rfl, heq⟩
    exact ⟨held, rfl, heq⟩
  release := by
    rintro s s' id ⟨held, rfl, heq⟩
    exact ⟨held, rfl, heq⟩
  cancel := by
    rintro s s' token ⟨held, rfl, heq⟩
    exact ⟨held, rfl, heq⟩

/-- What a unit forgets are the keys of its own threads. -/
theorem clear_eq {s s' : Shared} (h : Shared.Like (visible n) s s') :
    clear n s' = clear n s := by
  obtain ⟨held, rfl, heq⟩ := h
  have hcells : ∀ m : OrderedMap Nat RandomKey,
      (m.erase (n + 1)).erase (n + 2) = m.filterKeys (visible n) := by
    intro m
    unfold OrderedMap.erase
    rw [OrderedMap.filterKeys_filterKeys]
    congr 1
    funext id
    simp [visible]
  unfold clear Shared.forget
  dsimp only
  rw [hcells, hcells, heq]

/-- In the states in which a unit starts, the threads hold the first keys. -/
theorem prepare_keyed (u : WorkUnit) (t : Trace) (s : Shared) :
    u.Keyed t s.next (u.prepare s) := by
  constructor
  · show (Shared.hold _ _ _).heldKey (s.next + 2) = _
    rw [Shared.heldKey_hold, if_pos rfl]
    show _ = u.programKey.later (((Shared.setTrace _ _ _).trace (s.next + 5)).entries.countP _)
    rw [Shared.trace_setTrace, if_pos rfl]
    rfl
  · intro _
    show (Shared.hold _ _ _).heldKey (s.next + 1) = _
    rw [Shared.heldKey_hold, if_neg (by omega), Shared.heldKey_hold, if_pos rfl]

theorem prepare_like (u : WorkUnit) (s : Shared) :
    Shared.Like (visible s.next) (u.prepare s)
      ({ s with next := s.next + 6 }.setTrace (s.next + 5) .empty) := by
  refine Shared.Like.setTrace (Shared.Like.hold_hidden (Shared.Like.hold_hidden
    ⟨_, rfl, rfl⟩ ?_ _) ?_ _) _ _
  · simp [visible]
  · simp [visible]

variable {σ : Type} {job : Job σ}

/-- The two executions of the program of a unit end alike. -/
theorem endsAlike_execution (hbase : job.base = .link b (.standard false) .empty)
    (hfix : u.Fixes t) {index : Nat} {s : Shared}
    (hstops : (u.program job index s.next).Stops)
    (hover : (u.program job index s.next).StaysOver (u.chain job.base s.next)) :
    Program.EndsAlike (Shared.Like (visible s.next)) (u.execution job index s)
      (u.consultation t job index s) := by
  have hinner : Agrees (visible s.next) (u.Keyed t s.next) (u.chain job.base s.next).draw
      ((u.chain job.base s.next).drawUpon (s.next + 5) (u.oracle t (s.next + 5))) := by
    rw [drawUpon_chain, hbase]
    exact agrees_chain hfix
  -- A failing draw may have cost the thread a key that the oracle does not count, so
  -- after it the states are only alike.
  let R (s₁ s₂ : Shared) := Shared.Like (visible s.next) s₁ s₂ ∧ u.Keyed t s.next s₁
  have hsteady := isSteady_like (visible s.next)
  have hR : Program.IsSteady R :=
    ⟨fun h => hsteady.installed h.1,
      fun id h => ⟨hsteady.install id h.1, h.2.thread, h.2.site⟩,
      fun id h => ⟨hsteady.release id h.1, h.2.thread, h.2.site⟩,
      fun token h => ⟨hsteady.cancel token h.1, h.2.thread, h.2.site⟩⟩
  refine (Program.Within.endsAlike hR hsteady (fun h => h.1) ?_ hover (hstops _)
    ⟨u.prepare_like s, u.prepare_keyed t s⟩).1
  intro c site s₁ s₂ hlaid ⟨hlike, hJ⟩
  have hcancelled : s₂.isCancelled c.token = s₁.isCancelled c.token := by
    obtain ⟨held, rfl, -⟩ := hlike
    rfl
  unfold Context.draw Context.drawUpon
  rw [hcancelled]
  split
  · exact ⟨rfl, hlike, nofun⟩
  · have hagree := Chain.agrees_of_laidOver leaves_of_spares hinner hlaid site none s₁ s₂
      hlike hJ
    refine ⟨hagree.reply, hagree.like, fun h => ⟨hagree.like, ?_⟩⟩
    obtain ⟨v, hv⟩ := Outcome.isValue_iff.mp h
    exact hagree.again v hv

/-- **A unit comes to what it comes to against the oracle**, if its program stops at
the first failing draw and works on top of the chain that it is given. -/
theorem resample_eq_consult (u : WorkUnit) (t : Trace) (job : Job σ) (index : Nat)
    (s : Shared) (hbase : job.base = .link b (.standard false) .empty) (hfix : u.Fixes t)
    (hstops : (u.program job index s.next).Stops)
    (hover : (u.program job index s.next).StaysOver (u.chain job.base s.next)) :
    u.resample job index s = u.consult t job index s := by
  obtain ⟨hending, hlike⟩ := endsAlike_execution hbase hfix hstops hover
  have hfree : ∀ visited : Trace, u.free visited = visited.filterKeys fun name =>
      decide (name = u.site) || !t.contains name := by
    intro visited
    unfold free
    congr 1
    funext name
    exact hfix.contains_fixed name
  show (match (u.execution job index s).1.1 with
    | .value () => (.ok (u.free ((u.execution job index s).2.trace (s.next + 5))),
        clear s.next (u.execution job index s).2)
    | .failure e => (.error e, clear s.next (u.execution job index s).2)
    | .panic payload => (.error (.panicked (panicText payload)),
        clear s.next (u.execution job index s).2)) = u.consult t job index s
  unfold consult
  dsimp only
  rw [hending, hfree, hlike.trace, clear_eq hlike]

/-! ## A small unit -/

/-- A job over one standard interpreter, with the number 0. -/
def plain (model : Model Unit) : Job Unit :=
  ⟨model, .link 0 (.standard false) .empty, .prior, .ofId 1⟩

/-- A trace of two sites. -/
def pair : Trace :=
  .ofList [("a", ⟨.ofDepth, none, .ofNat 7, false⟩), ("b", ⟨.ofDepth, none, .ofNat 8, false⟩)]

/-- The unit that resamples the first of the two, from a given distribution. -/
def forFirst (d : Distribution) : WorkUnit where
  site := "a"
  posterior := d
  fixed := pair.assignment.filterKeys fun name => !decide (name = "a")
  key := .root
  token := .ofId 2

/-- A job whose program has a third site. -/
def threefold : Job Unit :=
  plain fun _ c => .ask c (.drawn "a" .ofDepth) fun _ => .ask c (.drawn "b" .ofDepth) fun _ =>
    .ask c (.drawn "c" .ofDepth) fun _ => .done

/-- The unit draws the first site from its posterior, is given the second, and
draws the third from its own distribution under the first key of the thread. -/
theorem resample_threefold :
    (forFirst (.constant (.ofNat 9) .null)).Fixes pair
      ∧ (forFirst (.constant (.ofNat 9) .null)).resample threefold 0 .small
        = (forFirst (.constant (.ofNat 9) .null)).consult pair threefold 0 .small
      ∧ ((forFirst (.constant (.ofNat 9) .null)).resample threefold 0 .small).1.toOption.map
        (fun nodes => nodes.entries.map fun e => (e.1, e.2.value.nat?))
          = some [("a", some 9), ("c", some 2)] := by
  refine ⟨rfl, resample_eq_consult _ pair threefold 0 .small rfl rfl ?_ ?_,
    by decide +kernel⟩
  · exact Program.stops_ask fun _ => Program.stops_ask fun _ => Program.stops_ask fun _ =>
      Program.stops_done
  · exact Program.within_ask .inner fun _ => Program.within_ask .inner fun _ =>
      Program.within_ask .inner fun _ => trivial

/-- A job whose program draws its one site under a thread of its own. -/
def selfKeyed : Job Unit :=
  plain fun _ c => .under c (.plain 1 (.thread false)) fun c =>
    .ask c (.drawn "a" .ofDepth) fun _ => .done

/-- **A program that brings a key of its own** is not answered under the key of the
unit, though it stops at its first failing draw and works on top of the chain it
is given. -/
theorem exists_own_key :
    ∃ (u : WorkUnit) (t : Trace) (job : Job Unit) (s : Shared),
      job.base = .link 0 (.standard false) .empty ∧ u.Fixes t
        ∧ s.isCancelled u.token = false ∧ (u.program job 0 s.next).Stops
        ∧ (u.program job 0 s.next).StaysOver (u.chain job.base s.next)
        ∧ ∃ nodes node, (u.resample job 0 s).1 = .ok nodes
          ∧ nodes.get? u.site = some node ∧ node.observed = false
          ∧ u.posterior.sample u.key.deeper.deeper ≠ .value node.value := by
  let u := forFirst .ofDepth
  have hstops : (u.program selfKeyed 0 Shared.small.next).Stops :=
    Program.stops_under (Program.stops_ask fun _ => Program.stops_done)
  have hspares : (u.chain selfKeyed.base Shared.small.next).Spares 1 (.thread false) :=
    fun _ => by decide
  have hover : (u.program selfKeyed 0 Shared.small.next).StaysOver
      (u.chain selfKeyed.base Shared.small.next) :=
    Program.within_under (Program.within_ask (.link hspares .inner) fun _ => trivial)
  refine ⟨u, pair, selfKeyed, .small, rfl, rfl, by decide, hstops, hover, ?_⟩
  have hseen : ((u.resample selfKeyed 0 .small).1.toOption.bind fun nodes =>
      (nodes.get? u.site).map fun node => (node.observed, node.value.nat?))
        = some (false, some 1) := by decide +kernel
  cases hok : (u.resample selfKeyed 0 .small).1 with
  | error e =>
    rw [hok] at hseen
    cases hseen
  | ok nodes =>
    rw [hok] at hseen
    obtain ⟨node, hnode, heq⟩ := Option.map_eq_some_iff.mp hseen
    obtain ⟨hobserved, hvalue⟩ := Prod.mk.inj heq
    refine ⟨nodes, node, rfl, hnode, hobserved, fun hsample => ?_⟩
    have hnat : (Json.ofNat 2).nat? = node.value.nat? := by
      rw [← Outcome.value.inj hsample]
      rfl
    rw [hvalue] at hnat
    exact absurd hnat (by decide)

end WorkUnit

end Resampler
