import Resampler.Proofs.Chain.Regime

/-!
# What is laid over a chain does not see what is under it

The answer of an interpreter depends on the rest of its chain only through what
that answers. If the inner chain is replaced by something else that answers
alike, then so does every chain that is laid over it. The two may do it in
their own ways: in the states that they leave behind the keys of some threads
may differ, which are those that nobody else splits (`Shared.Like`).

`Chain.drawUpon` is how a chain answers when all of it from one recorder on has
been replaced.
-/

namespace Resampler

/-! ## States that differ in hidden cells -/

namespace OrderedMap

variable {κ ν : Type} [DecidableEq κ] {p : κ → Bool} {k : κ}

theorem filter_write_of_not (h : p k = false) (v : ν) (l : List (κ × ν)) :
    (write k v l).filter (fun e => p e.1) = l.filter fun e => p e.1 := by
  induction l with
  | nil => simp [write, h]
  | cons e rest ih =>
    by_cases he : e.1 = k
    · simp [write, he, h]
    · simp [write, he, List.filter_cons, ih]

theorem filter_write (h : p k = true) (v : ν) (l : List (κ × ν)) :
    (write k v l).filter (fun e => p e.1) = write k v (l.filter fun e => p e.1) := by
  induction l with
  | nil => simp [write, h]
  | cons e rest ih =>
    by_cases he : e.1 = k
    · simp [write, he, h]
    · by_cases hp : p e.1 = true
      · simp [write, he, hp, ih]
      · simp [write, he, hp, ih]

/-- What is written to a key that is left out is left out. -/
theorem filterKeys_insert_of_not (h : p k = false) (m : OrderedMap κ ν) (v : ν) :
    (m.insert k v).filterKeys p = m.filterKeys p := by
  unfold filterKeys insert
  congr 1
  exact filter_write_of_not h v m.entries

/-- What is written to a key that is kept is kept. -/
theorem filterKeys_insert (h : p k = true) (m : OrderedMap κ ν) (v : ν) :
    (m.insert k v).filterKeys p = (m.filterKeys p).insert k v := by
  unfold filterKeys insert
  congr 1
  exact filter_write h v m.entries

omit [DecidableEq κ] in
theorem filterKeys_filterKeys (q : κ → Bool) (m : OrderedMap κ ν) :
    (m.filterKeys p).filterKeys q = m.filterKeys fun k => p k && q k := by
  unfold filterKeys
  congr 1
  rw [List.filter_filter]
  congr 1
  funext e
  exact Bool.and_comm _ _

end OrderedMap

namespace Shared

/-- **States that differ only in the keys of threads that are not visible.** -/
def Like (visible : Nat → Bool) (s t : Shared) : Prop :=
  ∃ held, t = { s with held := held }
    ∧ held.filterKeys visible = s.held.filterKeys visible

variable {visible : Nat → Bool} {s t : Shared} {id : Nat}

/-- A visible thread holds the same key. -/
theorem Like.heldKey (h : Like visible s t) (hid : visible id = true) :
    t.heldKey id = s.heldKey id := by
  obtain ⟨held, rfl, heq⟩ := h
  have hget := congrArg (fun m => m.get? id) heq
  simp only [OrderedMap.get?_filterKeys, hid, if_true] at hget
  show (held.get? id).getD .root = (s.held.get? id).getD .root
  rw [hget]

/-- The same key can be held by the same thread in both. -/
theorem Like.hold (h : Like visible s t) (hid : visible id = true) (k : RandomKey) :
    Like visible (s.hold id k) (t.hold id k) := by
  obtain ⟨held, rfl, heq⟩ := h
  refine ⟨held.insert id k, rfl, ?_⟩
  show (held.insert id k).filterKeys visible = (s.held.insert id k).filterKeys visible
  rw [OrderedMap.filterKeys_insert hid, OrderedMap.filterKeys_insert hid, heq]

/-- Traces are the same. -/
theorem Like.trace (h : Like visible s t) (id : Nat) : t.trace id = s.trace id := by
  obtain ⟨held, rfl, -⟩ := h
  rfl

theorem Like.setTrace (h : Like visible s t) (id : Nat) (trace : Trace) :
    Like visible (s.setTrace id trace) (t.setTrace id trace) := by
  obtain ⟨held, rfl, heq⟩ := h
  exact ⟨held, rfl, heq⟩

theorem Like.noteAsked (h : Like visible s t) (site : Site) (k : RandomKey) :
    Like visible (s.noteAsked site k) (t.noteAsked site k) := by
  obtain ⟨held, rfl, heq⟩ := h
  exact ⟨held, rfl, heq⟩

/-- What is held by a thread that is not visible does not matter. -/
theorem Like.hold_hidden (h : Like visible s t) (hid : visible id = false)
    (k : RandomKey) : Like visible (s.hold id k) t := by
  obtain ⟨held, rfl, heq⟩ := h
  refine ⟨held, rfl, ?_⟩
  show held.filterKeys visible = (s.held.insert id k).filterKeys visible
  rw [OrderedMap.filterKeys_insert_of_not hid, heq]

end Shared

/-! ## Answering alike -/

/-- **Two answers that agree**, the first of which keeps a condition if it is a
value. -/
structure Agree (visible : Nat → Bool) (J : Shared → Prop) (out out' : Reply × Shared) :
    Prop where
  reply : out'.1 = out.1
  like : Shared.Like visible out.2 out'.2
  again : ∀ v, out.1 = .value v → J out.2

/-- Failing alike is agreeing. -/
theorem Agree.failed {visible : Nat → Bool} {J : Shared → Prop} {s t : Shared}
    (h : Shared.Like visible s t) (e : Error) :
    Agree visible J (.failure e, s) (.failure e, t) :=
  ⟨rfl, h, fun v hv => by cases hv⟩

/-- Go on with an answer that is a value. -/
def onValue (out : Reply × Shared) (next : Json → Shared → Reply × Shared) :
    Reply × Shared :=
  match out with
  | (.value v, s) => next v s
  | unanswered => unanswered

/-- What goes on with a value, in ways that agree, agrees in the end. -/
theorem Agree.onValue {visible : Nat → Bool} {J : Shared → Prop}
    {out out' : Reply × Shared} (h : Agree visible J out out')
    (next : Json → Shared → Reply × Shared)
    (hn : ∀ v s t, Shared.Like visible s t → J s → Agree visible J (next v s) (next v t)) :
    Agree visible J (onValue out next) (onValue out' next) := by
  obtain ⟨reply, s⟩ := out
  obtain ⟨reply', t⟩ := out'
  obtain ⟨hreply, hlike, hagain⟩ := h
  change reply' = reply at hreply
  subst hreply
  cases reply' with
  | value v => exact hn v s t hlike (hagain v rfl)
  | failure e => exact Agree.failed hlike e
  | panic payload => exact ⟨rfl, hlike, fun v hv => by cases hv⟩

/-- **Two answerers that agree** in states that differ only in hidden keys. -/
def Agrees (visible : Nat → Bool) (J : Shared → Prop) (f f' : Answerer) : Prop :=
  ∀ site key s t, Shared.Like visible s t → J s → Agree visible J (f site key s) (f' site key t)

/-- **An interpreter that leaves alone** what is hidden, and what the condition is
about. -/
structure Handler.Leaves (visible : Nat → Bool) (J : Shared → Prop) (id : Nat)
    (h : Handler) : Prop where
  visible : ∀ force, h = .thread force → visible id = true
  writes : ∀ {name s s'}, h.Writes id name s s' → J s → J s'
  asks : ∀ (site : Site) (k : RandomKey) {s}, J s →
    J (s.noteAsked site k) ∧ J ((s.useUp id k).noteAsked site k)

namespace Handler

variable {visible : Nat → Bool} {J : Shared → Prop} {id : Nat} {next next' : Answerer}

theorem agrees_standard (detectReuse : Bool)
    (hl : (Handler.standard detectReuse).Leaves visible J id) :
    Agrees visible J (drawStandard id detectReuse) (drawStandard id detectReuse) := by
  rintro site key s - ⟨held, rfl, heq⟩ hJ
  have hused : ({ s with held := held } : Shared).usedKeys id = s.usedKeys id := rfl
  unfold drawStandard
  rw [hused]
  split
  · exact ⟨rfl, ⟨held, rfl, heq⟩, fun _ _ => hJ⟩
  · exact ⟨rfl, ⟨held, rfl, heq⟩, fun _ _ => hJ⟩
  · next k _ =>
    have hasks := hl.asks site k hJ
    split
    · split
      · exact ⟨rfl, ⟨held, rfl, heq⟩, fun _ _ => hJ⟩
      · exact ⟨rfl, ⟨held, rfl, heq⟩, fun _ _ => hasks.2⟩
    · exact ⟨rfl, ⟨held, rfl, heq⟩, fun _ _ => hasks.1⟩

theorem agrees_thread (force : Bool) (hl : (Handler.thread force).Leaves visible J id)
    (hn : Agrees visible J next next') :
    Agrees visible J (drawThread id force next) (drawThread id force next') := by
  intro site key s t hlike hJ
  unfold drawThread
  split
  · exact hn site key s t hlike hJ
  · dsimp only
    rw [hlike.heldKey (hl.visible force rfl)]
    exact hn _ _ _ _ (hlike.hold (hl.visible force rfl) _)
      (hl.writes (.hold force site.name s _) hJ)

theorem agrees_memo (cache : Nat) (hl : (Handler.memo cache).Leaves visible J id)
    (hn : Agrees visible J next next') :
    Agrees visible J (drawMemo cache next) (drawMemo cache next') := by
  intro site key s t hlike hJ
  have hcache : t.cache cache = s.cache cache := by
    obtain ⟨held, rfl, -⟩ := hlike
    rfl
  unfold drawMemo
  rw [hcache]
  split
  · exact hn _ _ _ _ hlike hJ
  · exact ⟨rfl, hlike, fun _ _ => hJ⟩
  · next k _ =>
    dsimp only
    split
    · exact ⟨rfl, hlike, fun _ _ => hJ⟩
    · refine (hn site (some k) s t hlike hJ).onValue
        (fun v s => (.value v, s.remember cache (site.distribution.identity, k) v)) ?_
      rintro v s t ⟨held, rfl, heq⟩ hJ
      exact ⟨rfl, ⟨held, rfl, heq⟩, fun _ _ => hl.writes (.remember cache site.name s _ v) hJ⟩

/-- What is kept does not depend on the keys that threads hold. -/
theorem keep_held (s : Shared) (held : OrderedMap Nat RandomKey) (store number : Nat)
    (text : String) : ({ s with held := held } : Shared).keep store number text
      = (s.keep store number text).map fun s' => { s' with held := held } := by
  have hstore : ({ s with held := held } : Shared).store store = s.store store := rfl
  unfold Shared.keep
  rw [hstore]
  dsimp only
  cases (s.store store).insertIfAbsent s.files number text with
  | error e => rfl
  | ok out => rfl

/-- What is answered is kept in a store first. -/
def keepAnswer (store number : Nat) (v : Json) (s : Shared) : Reply × Shared :=
  match s.keep store number v.text with
  | .ok s => (.value v, s)
  | .error e => (.failure e, s)

theorem agrees_persistent (store : Nat) (hl : (Handler.persistent store).Leaves visible J id)
    (hn : Agrees visible J next next') :
    Agrees visible J (drawPersistent store next) (drawPersistent store next') := by
  intro site key s t hlike hJ
  have hstore : t.store store = s.store store := by
    obtain ⟨held, rfl, -⟩ := hlike
    rfl
  unfold drawPersistent
  rw [hstore]
  split
  · exact hn _ _ _ _ hlike hJ
  · exact ⟨rfl, hlike, fun _ _ => hJ⟩
  · next k _ =>
    dsimp only
    split
    · exact Agree.failed hlike _
    · split
      · exact ⟨rfl, hlike, fun _ _ => hJ⟩
      · exact Agree.failed hlike _
    · refine (hn site (some k) s t hlike hJ).onValue
        (keepAnswer store (site.distribution.cacheKey k)) ?_
      rintro v s t ⟨held, rfl, heq⟩ hJ
      unfold keepAnswer
      rw [keep_held s held]
      cases hk : s.keep store (site.distribution.cacheKey k) v.text with
      | error e => exact Agree.failed ⟨held, rfl, heq⟩ e
      | ok s' =>
        obtain ⟨st, files, rfl⟩ := Shared.keep_ok hk
        exact ⟨rfl, ⟨held, rfl, heq⟩, fun _ _ => hl.writes (.keep site.name hk) hJ⟩

theorem agrees_recorder (hl : Handler.recorder.Leaves visible J id)
    (hn : Agrees visible J next next') :
    Agrees visible J (drawRecorder id next) (drawRecorder id next') := by
  intro site key s t hlike hJ
  unfold drawRecorder
  rw [hlike.trace]
  split
  · exact Agree.failed hlike _
  · refine (hn site key s t hlike hJ).onValue (fun v s =>
      if (s.trace id).contains site.name then (.failure (.duplicateSite site.name), s)
      else (.value v, s.setTrace id ((s.trace id).insert site.name (site.node key v)))) ?_
    intro v s t hlike hJ
    rw [hlike.trace]
    split
    · exact Agree.failed hlike _
    · next hc =>
      exact ⟨rfl, hlike.setTrace id _,
        fun _ _ => hl.writes (.record _ (Bool.eq_false_iff.mpr hc)) hJ⟩

theorem agrees_condition (data : OrderedMap String Json) (hn : Agrees visible J next next') :
    Agrees visible J (drawCondition data next) (drawCondition data next') := by
  intro site key s t hlike hJ
  unfold drawCondition
  split
  · exact ⟨rfl, hlike, fun _ _ => hJ⟩
  · exact hn _ _ _ _ hlike hJ

theorem agrees_replay (values : OrderedMap String Json) :
    Agrees visible J (drawReplay values) (drawReplay values) := by
  intro site key s t hlike hJ
  unfold drawReplay
  split
  · exact ⟨rfl, hlike, fun _ _ => hJ⟩
  · exact ⟨rfl, hlike, fun _ _ => hJ⟩
  · exact ⟨rfl, hlike, fun v hv => by cases hv⟩

/-- **An interpreter agrees with itself** if what it hands on to agrees. -/
theorem agrees_draw {h : Handler} (hl : h.Leaves visible J id)
    (hn : Agrees visible J next next') : Agrees visible J (h.draw id next) (h.draw id next') := by
  cases h with
  | standard detectReuse => exact agrees_standard detectReuse hl
  | thread force => exact agrees_thread force hl hn
  | memo cache => exact agrees_memo cache hl hn
  | persistent store => exact agrees_persistent store hl hn
  | recorder => exact agrees_recorder hl hn
  | condition data => exact agrees_condition data hn
  | replay values => exact agrees_replay values
  | substitute d => exact fun _ key s t => hn _ key s t
  | spy =>
    rintro site key s t ⟨held, rfl, heq⟩ hJ
    exact hn _ _ _ _ ⟨held, rfl, heq⟩ (hl.writes (.sight site.name s key) hJ)
  | constant v => exact fun _ _ _ _ hlike hJ => ⟨rfl, hlike, fun _ _ => hJ⟩
  | rekey key' => exact fun site _ s t => hn site key' s t

end Handler

namespace Chain

variable {visible : Nat → Bool} {J : Shared → Prop}

/-- **How a chain answers when all of it from one recorder on has been
replaced.** -/
def drawUpon (i : Nat) (f : Answerer) : Chain → Answerer
  | .empty => fun site _ s => (site.unanswered, s)
  | .link id .recorder rest =>
    if id = i then f else Handler.recorder.draw id (rest.drawUpon i f)
  | .link id handler rest => handler.draw id (rest.drawUpon i f)
  | .branch _ selects alternate rest => fun site key s =>
    if selects site.name site.distribution then alternate.drawUpon i f site key s
    else rest.drawUpon i f site key s

/-- Another instance stays on top of what has been replaced. -/
theorem drawUpon_link {i id : Nat} {f : Answerer} {h : Handler} (rest : Chain)
    (hne : h = .recorder → id ≠ i) :
    (link id h rest).drawUpon i f = h.draw id (rest.drawUpon i f) := by
  cases h with
  | recorder => exact if_neg (hne rfl)
  | _ => rfl

/-- **What is laid over a chain agrees with itself** when the chain is replaced by
what agrees with it. -/
theorem agrees_of_laidOver {i : Nat} {f : Answerer} {inner : Chain}
    {permitted : Nat → Handler → Prop}
    (hp : ∀ {id h}, permitted id h → h.Leaves visible J id ∧ (h = .recorder → id ≠ i))
    (hi : Agrees visible J inner.draw (inner.drawUpon i f)) {c : Chain}
    (hc : LaidOver inner permitted c) : Agrees visible J c.draw (c.drawUpon i f) := by
  induction hc with
  | inner => exact hi
  | empty => exact fun _ _ _ _ hlike hJ => ⟨rfl, hlike, fun _ _ => hJ⟩
  | link ok _ ih =>
    rw [drawUpon_link _ (hp ok).2]
    exact Handler.agrees_draw (hp ok).1 ih
  | @branch id selects alternate rest _ _ iha ihr =>
    intro site key s t hlike hJ
    show Agree visible J
      (if selects site.name site.distribution then alternate.draw site key s
        else rest.draw site key s)
      (if selects site.name site.distribution then alternate.drawUpon i f site key t
        else rest.drawUpon i f site key t)
    split
    · exact iha _ _ _ _ hlike hJ
    · exact ihr _ _ _ _ hlike hJ

end Chain

end Resampler
