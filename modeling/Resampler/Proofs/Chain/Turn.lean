import Resampler.Chain.Draw

/-!
# The turn of one interpreter

An interpreter that is handed a draw asks the distribution, or answers by
itself and leaves the state as it is, or hands the draw on, to the rest of
its chain and only once. In the last case it may write to cells of its own
before it hands on and after the answer has come, and it may refuse that
answer, but it never turns a failure into a value.

`Turn` says so in one relation, and `draw_turn` says that every interpreter
obeys it. What holds of a whole chain is then shown along the chain, with
`Turn` for one link, and no further look at the interpreters.
-/

namespace Resampler

namespace Handler

/-- **What an interpreter writes by itself** on account of a draw with a
name. Asking the distribution is not among it. -/
inductive Writes (id : Nat) : Handler → String → Shared → Shared → Prop where
  /-- Nothing. -/
  | nothing (h : Handler) (name : String) (s : Shared) : Writes id h name s s
  /-- A thread writes the key that it holds. -/
  | hold (force : Bool) (name : String) (s : Shared) (k : RandomKey) :
    Writes id (.thread force) name s (s.hold id k)
  /-- A value goes into a cache. -/
  | remember (cache : Nat) (name : String) (s : Shared)
    (entry : String × RandomKey) (v : Json) :
    Writes id (.memo cache) name s (s.remember cache entry v)
  /-- A text goes into a store. -/
  | keep {store number : Nat} {text : String} (name : String) {s s' : Shared}
    (h : s.keep store number text = .ok s') :
    Writes id (.persistent store) name s s'
  /-- A recorder records the draw, which it has not recorded yet. -/
  | record {name : String} {s : Shared} (node : TraceNode)
    (h : (s.trace id).contains name = false) :
    Writes id .recorder name s (s.setTrace id ((s.trace id).insert name node))
  /-- A spy sees the draw. -/
  | sight (name : String) (s : Shared) (key : Option RandomKey) :
    Writes id .spy name s (s.sight id name key)

/-- **Which key an interpreter hands on** for the one that it was given. -/
inductive Rekeys (id : Nat) (s : Shared) :
    Handler → Option RandomKey → Option RandomKey → Prop where
  /-- The same one. -/
  | same (h : Handler) (key : Option RandomKey) : Rekeys id s h key key
  /-- A thread gives a key of its own. -/
  | thread (force : Bool) (key : Option RandomKey) :
    Rekeys id s (.thread force) key (some (s.heldKey id).deeper)
  /-- The key is replaced. -/
  | replace (key key' : Option RandomKey) : Rekeys id s (.rekey key') key key'

/-- **The turn of an interpreter** at a draw, by what it comes to. -/
inductive Turn (id : Nat) (next : Answerer) (site : Site)
    (key : Option RandomKey) (s : Shared) (h : Handler) :
    Reply × Shared → Prop where
  /-- It asks the distribution. -/
  | asks {detectReuse : Bool} {k : RandomKey} {s' : Shared}
    (kind : h = .standard detectReuse) (keyed : key = some k)
    (drawn : site.observed = none)
    (noted : s' = s.noteAsked site k ∨ s' = (s.useUp id k).noteAsked site k) :
    Turn id next site key s h (site.ask k, s')
  /-- It answers by itself. Only if there is a key it can complain about its
  reuse. -/
  | answers (reply : Reply)
    (blame : ∀ e, reply = .failure e → e.isReuse = true → key.isSome = true) :
    Turn id next site key s h (reply, s)
  /-- It hands the draw on. -/
  | passes {site' : Site} {key' : Option RandomKey} {s₁ s₂ s₃ : Shared}
    {reply reply' : Reply} (name : site'.name = site.name)
    (observed : site'.observed = site.observed) (keys : Rekeys id s h key key')
    (before : Writes id h site.name s s₁)
    (rest : next site' key' s₁ = (reply, s₂))
    (after : Writes id h site.name s₂ s₃)
    (told : reply' = reply ∨ ∃ v e, reply = .value v ∧ reply' = .failure e
      ∧ e.isReuse = false) :
    Turn id next site key s h (reply', s₃)

variable {id : Nat} {next : Answerer} {site : Site} {key : Option RandomKey}
variable {s : Shared}

/-- An interpreter that adds nothing of its own hands on. -/
theorem Turn.same (h : Handler) :
    Turn id next site key s h (next site key s) :=
  .passes rfl rfl (.same h key) (.nothing h _ s) rfl (.nothing h _ _) (.inl rfl)

/-- An interpreter may answer with a value. -/
theorem Turn.value (h : Handler) (v : Json) :
    Turn id next site key s h (.value v, s) :=
  .answers _ fun _ he => nomatch he

/-- An interpreter may fail, other than for the reuse of a key. -/
theorem Turn.failure (h : Handler) {e : Error} (he : e.isReuse = false) :
    Turn id next site key s h (.failure e, s) := by
  refine .answers _ fun e' h' hr => ?_
  cases h'
  rw [he] at hr
  exact Bool.noConfusion hr

theorem turn_standard (detectReuse : Bool) :
    Turn id next site key s (.standard detectReuse)
      (drawStandard id detectReuse site key s) := by
  unfold drawStandard
  split
  · exact .value _ _
  · exact .failure _ rfl
  · next k ho =>
    split
    · split
      · exact .answers _ fun _ _ _ => rfl
      · exact .asks rfl rfl ho (.inr rfl)
    · exact .asks rfl rfl ho (.inl rfl)

theorem turn_thread (force : Bool) :
    Turn id next site key s (.thread force) (drawThread id force next site key s) := by
  unfold drawThread
  split
  · exact .same _
  · exact .passes rfl rfl (.thread force key) (.hold force _ s _) rfl
      (.nothing _ _ _) (.inl rfl)

theorem turn_memo (cache : Nat) :
    Turn id next site key s (.memo cache) (drawMemo cache next site key s) := by
  unfold drawMemo
  split
  · exact .same _
  · exact .failure _ rfl
  · next k ho =>
    dsimp only
    split
    · exact .value _ _
    · split
      · next v s' hn =>
        exact .passes rfl rfl (.same _ _) (.nothing _ _ s) hn
          (.remember cache _ s' _ v) (.inl rfl)
      · exact .same _

/-- A store never complains about the reuse of a key. -/
theorem isReuse_get? {st : Store} {number : Nat} {e : Error}
    (h : st.get? number = .error e) : e.isReuse = false := by
  unfold Store.get? at h
  split at h
  · cases h
    rfl
  · cases h

theorem isReuse_keep {s : Shared} {store number : Nat} {text : String} {e : Error}
    (h : s.keep store number text = .error e) : e.isReuse = false := by
  unfold Shared.keep Store.insertIfAbsent at h
  split at h
  · cases h
  · split at h <;> cases h
  · cases h
    rfl
  · cases h

theorem turn_persistent (store : Nat) :
    Turn id next site key s (.persistent store)
      (drawPersistent store next site key s) := by
  unfold drawPersistent
  split
  · exact .same _
  · exact .failure _ rfl
  · next k ho =>
    dsimp only
    split
    · next e he => exact .failure _ (isReuse_get? he)
    · split
      · exact .value _ _
      · exact .failure _ rfl
    · split
      · next v s' hn =>
        split
        · next s'' hk =>
          exact .passes rfl rfl (.same _ _) (.nothing _ _ s) hn (.keep _ hk)
            (.inl rfl)
        · next e he =>
          exact .passes rfl rfl (.same _ _) (.nothing _ _ s) hn (.nothing _ _ s')
            (.inr ⟨v, e, rfl, rfl, isReuse_keep he⟩)
      · exact .same _

theorem turn_recorder :
    Turn id next site key s .recorder (drawRecorder id next site key s) := by
  unfold drawRecorder
  split
  · exact .failure _ rfl
  · split
    · next v s' hn =>
      split
      · exact .passes rfl rfl (.same _ _) (.nothing _ _ s) hn (.nothing _ _ s')
          (.inr ⟨v, _, rfl, rfl, rfl⟩)
      · next hc =>
        exact .passes rfl rfl (.same _ _) (.nothing _ _ s) hn
          (.record _ (Bool.eq_false_iff.mpr hc)) (.inl rfl)
    · exact .same _

/-- **Every interpreter takes its turn.** -/
theorem draw_turn (id : Nat) (h : Handler) (next : Answerer) (site : Site)
    (key : Option RandomKey) (s : Shared) :
    Turn id next site key s h (h.draw id next site key s) := by
  cases h with
  | standard detectReuse => exact turn_standard detectReuse
  | thread force => exact turn_thread force
  | memo cache => exact turn_memo cache
  | persistent store => exact turn_persistent store
  | recorder => exact turn_recorder
  | condition data =>
    show Turn id next site key s _ (drawCondition data next site key s)
    unfold drawCondition
    split
    · exact .value _ _
    · exact .same _
  | replay values =>
    show Turn id next site key s _ (drawReplay values site key s)
    unfold drawReplay
    split
    · exact .value _ _
    · exact .value _ _
    · exact .failure _ rfl
  | substitute d =>
    have hname : ({ site with distribution := d } : Site).name = site.name := rfl
    exact .passes hname rfl (.same _ _) (.nothing _ _ s) rfl (.nothing _ _ _)
      (.inl rfl)
  | spy =>
    exact .passes rfl rfl (.same _ _) (.sight _ s _) rfl (.nothing _ _ _) (.inl rfl)
  | constant v => exact .value _ _
  | rekey key' =>
    exact .passes rfl rfl (.replace _ _) (.nothing _ _ s) rfl (.nothing _ _ _)
      (.inl rfl)

end Handler

end Resampler
