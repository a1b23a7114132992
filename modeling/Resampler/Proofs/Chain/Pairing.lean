import Mathlib.Data.List.Forall2
import Resampler.Proofs.Chain.Passage

/-!
# Two worlds side by side

The same draws may be made in two worlds that differ in the numbers that instances and
tokens have, and in what stands at the bottom of the chains. A `Pairing` says which numbers
of the two correspond, and what the caches, stores and files of the two have to do with
each other. Two states are `Pairing.Beside` each other if each knows of its instances what
the other knows of the corresponding ones.

An interpreter that is handed on alike answers alike, and leaves states beside each other.
So do chains that are built alike over two bases that do (`Pairing.Twins.agree`). What the
bases are asked for can be restricted, to what a draw really comes to them with; that is
the condition `P` of `Chain.Throughout`.
-/

namespace Resampler

namespace Shared

@[simp] theorem usedKeys_useUp (s : Shared) (id j : Nat) (k : RandomKey) :
    (s.useUp id k).usedKeys j = if id = j then k :: s.usedKeys id else s.usedKeys j := by
  by_cases h : id = j <;> simp [usedKeys, useUp, h]

@[simp] theorem seen_sight (s : Shared) (id j : Nat) (name : String)
    (key : Option RandomKey) : (s.sight id name key).seen j
      = if id = j then s.seen id ++ [(name, key)] else s.seen j := by
  by_cases h : id = j <;> simp [seen, sight, h]

@[simp] theorem heldKey_forget (s : Shared) (id j : Nat) :
    (s.forget id).heldKey j = if id = j then .root else s.heldKey j := by
  by_cases h : id = j
  · simp [heldKey, forget, OrderedMap.erase, h]
  · simp [heldKey, forget, OrderedMap.erase, h, Ne.symm h]

@[simp] theorem trace_forget (s : Shared) (id j : Nat) :
    (s.forget id).trace j = if id = j then .empty else s.trace j := by
  by_cases h : id = j
  · simp [trace, forget, OrderedMap.erase, h]
  · simp [trace, forget, OrderedMap.erase, h, Ne.symm h]

end Shared

/-- **What one state knows of a number, another knows of a second number.** -/
structure Shared.SameCells (s t : Shared) (a b : Nat) : Prop where
  held : t.heldKey b = s.heldKey a
  used : t.usedKeys b = s.usedKeys a
  trace : t.trace b = s.trace a
  seen : t.seen b = s.seen a
  installed : t.installed.count b = s.installed.count a

/-- **A pairing of two worlds.** -/
structure Pairing where
  /-- Which instances correspond. -/
  instances : Nat → Nat → Prop
  /-- Which tokens correspond. -/
  tokens : Nat → Nat → Prop
  /-- What is asked of the caches, the stores and the files of two states, and of what has
  been asked in them. -/
  side : Shared → Shared → Prop
  /-- No instance corresponds to two. -/
  instances_iff : ∀ {a b a' b'}, instances a b → instances a' b' → (a = a' ↔ b = b')
  /-- No token corresponds to two. -/
  tokens_iff : ∀ {a b a' b'}, tokens a b → tokens a' b' → (a = a' ↔ b = b')
  /-- Nothing else is asked of them. -/
  side_of_eq : ∀ {s t s' t' : Shared}, side s t →
    s'.caches = s.caches → s'.stores = s.stores → s'.files = s.files → s'.asked = s.asked →
    t'.caches = t.caches → t'.stores = t.stores → t'.files = t.files → t'.asked = t.asked →
    side s' t'

namespace Pairing

variable {W : Pairing} {s t : Shared} {a b : Nat}

/-- **Two states beside each other.** -/
structure Beside (W : Pairing) (s t : Shared) : Prop where
  /-- The numbers that are given out next correspond. -/
  next : ∀ j, W.instances (s.next + j) (t.next + j) ∧ W.tokens (s.next + j) (t.next + j)
  /-- The cells of corresponding instances are the same. -/
  cells : ∀ {a b}, W.instances a b → s.SameCells t a b
  /-- Corresponding tokens are cancelled together. -/
  cancelled : ∀ {a b}, W.tokens a b → (b ∈ t.cancelled ↔ a ∈ s.cancelled)
  side : W.side s t

namespace Beside

/-! ## What is done alike to both -/

theorem hold (h : W.Beside s t) (hab : W.instances a b) (k : RandomKey) :
    W.Beside (s.hold a k) (t.hold b k) where
  next := h.next
  cells {a' b'} hab' := { h.cells hab' with
    held := by
      rw [Shared.heldKey_hold, Shared.heldKey_hold, (h.cells hab').held]
      simp only [W.instances_iff hab hab'] }
  cancelled := h.cancelled
  side := W.side_of_eq h.side rfl rfl rfl rfl rfl rfl rfl rfl

theorem setTrace (h : W.Beside s t) (hab : W.instances a b) (trace : Trace) :
    W.Beside (s.setTrace a trace) (t.setTrace b trace) where
  next := h.next
  cells {a' b'} hab' := { h.cells hab' with
    trace := by
      rw [Shared.trace_setTrace, Shared.trace_setTrace, (h.cells hab').trace]
      simp only [W.instances_iff hab hab'] }
  cancelled := h.cancelled
  side := W.side_of_eq h.side rfl rfl rfl rfl rfl rfl rfl rfl

theorem sight (h : W.Beside s t) (hab : W.instances a b) (name : String)
    (key : Option RandomKey) : W.Beside (s.sight a name key) (t.sight b name key) where
  next := h.next
  cells {a' b'} hab' := { h.cells hab' with
    seen := by
      rw [Shared.seen_sight, Shared.seen_sight, (h.cells hab').seen, (h.cells hab).seen]
      simp only [W.instances_iff hab hab'] }
  cancelled := h.cancelled
  side := W.side_of_eq h.side rfl rfl rfl rfl rfl rfl rfl rfl

theorem useUp (h : W.Beside s t) (hab : W.instances a b) (k : RandomKey) :
    W.Beside (s.useUp a k) (t.useUp b k) where
  next := h.next
  cells {a' b'} hab' := { h.cells hab' with
    used := by
      rw [Shared.usedKeys_useUp, Shared.usedKeys_useUp, (h.cells hab').used,
        (h.cells hab).used]
      simp only [W.instances_iff hab hab'] }
  cancelled := h.cancelled
  side := W.side_of_eq h.side rfl rfl rfl rfl rfl rfl rfl rfl

theorem forget (h : W.Beside s t) (hab : W.instances a b) :
    W.Beside (s.forget a) (t.forget b) where
  next := h.next
  cells {a' b'} hab' := { h.cells hab' with
    held := by
      rw [Shared.heldKey_forget, Shared.heldKey_forget, (h.cells hab').held]
      simp only [W.instances_iff hab hab']
    trace := by
      rw [Shared.trace_forget, Shared.trace_forget, (h.cells hab').trace]
      simp only [W.instances_iff hab hab'] }
  cancelled := h.cancelled
  side := W.side_of_eq h.side rfl rfl rfl rfl rfl rfl rfl rfl

theorem install (h : W.Beside s t) (hab : W.instances a b) :
    W.Beside (s.install a) (t.install b) where
  next := h.next
  cells {a' b'} hab' := { h.cells hab' with
    installed := by
      show (b :: t.installed).count b' = (a :: s.installed).count a'
      rw [List.count_cons, List.count_cons, (h.cells hab').installed]
      simp only [beq_iff_eq, W.instances_iff hab hab'] }
  cancelled := h.cancelled
  side := W.side_of_eq h.side rfl rfl rfl rfl rfl rfl rfl rfl

theorem release (h : W.Beside s t) (hab : W.instances a b) :
    W.Beside (s.release a) (t.release b) where
  next := h.next
  cells {a' b'} hab' := { h.cells hab' with
    installed := by
      show (t.installed.erase b).count b' = (s.installed.erase a).count a'
      rw [List.count_erase, List.count_erase, (h.cells hab').installed]
      simp only [beq_iff_eq, W.instances_iff hab hab'] }
  cancelled := h.cancelled
  side := W.side_of_eq h.side rfl rfl rfl rfl rfl rfl rfl rfl

/-- Numbers are given out. -/
theorem advance (h : W.Beside s t) (m : Nat) :
    W.Beside { s with next := s.next + m } { t with next := t.next + m } where
  next j := by
    show W.instances (s.next + m + j) (t.next + m + j) ∧ _
    rw [Nat.add_assoc, Nat.add_assoc]
    exact h.next (m + j)
  cells hab := { h.cells hab with }
  cancelled := h.cancelled
  side := W.side_of_eq h.side rfl rfl rfl rfl rfl rfl rfl rfl

end Beside

/-! ## Tokens -/

/-- **Tokens that correspond**, and their ancestors with them. -/
def SameToken (W : Pairing) (τ τ' : Token) : Prop :=
  List.Forall₂ W.tokens τ.lineage τ'.lineage

variable {τ τ' : Token}

theorem SameToken.child (h : W.SameToken τ τ') (hab : W.tokens a b) :
    W.SameToken (τ.child a) (τ'.child b) :=
  .cons hab h

/-- Tokens that correspond are cancelled together. -/
theorem Beside.isCancelled (h : W.Beside s t) (hτ : W.SameToken τ τ') :
    t.isCancelled τ' = s.isCancelled τ := by
  show (τ'.lineage.any fun id => decide (id ∈ t.cancelled))
    = τ.lineage.any fun id => decide (id ∈ s.cancelled)
  unfold SameToken at hτ
  generalize τ.lineage = l, τ'.lineage = l' at hτ
  induction hτ with
  | nil => rfl
  | cons hab _ ih =>
    rw [List.any_cons, List.any_cons, ih]
    simp only [h.cancelled hab]

theorem Beside.cancel (h : W.Beside s t) (hτ : W.SameToken τ τ') :
    W.Beside (s.cancel τ) (t.cancel τ') where
  next := h.next
  cells hab := { h.cells hab with }
  cancelled {a b} hab := by
    cases hτ with
    | cons hid _ =>
      show b ∈ τ'.id :: t.cancelled ↔ a ∈ τ.id :: s.cancelled
      rw [List.mem_cons, List.mem_cons, h.cancelled hab, W.tokens_iff hab hid]
  side := W.side_of_eq h.side rfl rfl rfl rfl rfl rfl rfl rfl

/-! ## Interpreters -/

/-- **Kinds of interpreters that may stand in both worlds**: caches and stores answer alike
and are filled alike, and asking a distribution does not break the pairing. -/
structure Suits (W : Pairing) (h : Handler) : Prop where
  asks : ∀ {detectReuse s t} (site : Site) (k : RandomKey), h = .standard detectReuse →
    W.side s t → W.side (s.noteAsked site k) (t.noteAsked site k)
  caches : ∀ {i s t}, h = .memo i → W.side s t → t.cache i = s.cache i
    ∧ ∀ entry v, W.side (s.remember i entry v) (t.remember i entry v)
  stores : ∀ {i s t}, h = .persistent i → W.side s t → t.store i = s.store i
    ∧ t.files = s.files ∧ ∀ st files, W.side { s.setStore i st with files := files }
      { t.setStore i st with files := files }

/-- **Two outcomes that agree**, in states beside each other. -/
structure Agree (W : Pairing) {α : Type} (out out' : α × Shared) : Prop where
  same : out'.1 = out.1
  beside : W.Beside out.2 out'.2

/-- What goes on with a value, in ways that agree, agrees in the end. -/
theorem Agree.onValue {out out' : Reply × Shared} (h : W.Agree out out')
    (next next' : Json → Shared → Reply × Shared)
    (hn : ∀ v s t, W.Beside s t → W.Agree (next v s) (next' v t)) :
    W.Agree (onValue out next) (onValue out' next') := by
  obtain ⟨reply, s⟩ := out
  obtain ⟨reply', t⟩ := out'
  obtain ⟨hsame, hbeside⟩ := h
  change reply' = reply at hsame
  subst hsame
  cases reply' with
  | value v => exact hn v s t hbeside
  | failure e => exact ⟨rfl, hbeside⟩
  | panic payload => exact ⟨rfl, hbeside⟩

section Interpreters

variable {h : Handler} {site : Site} {key : Option RandomKey} {next next' : Answerer}

/-- What an interpreter hands on is answered alike. -/
def HandsOnAlike (W : Pairing) (a : Nat) (h : Handler) (site : Site)
    (key : Option RandomKey) (s : Shared) (next next' : Answerer) : Prop :=
  ∀ x t, h.handsOn a site key s = some x → W.Beside x.state t →
    W.Agree (next x.site x.key x.state) (next' x.site x.key t)

theorem agree_standard {detectReuse : Bool} (hW : W.Suits (.standard detectReuse))
    (hab : W.instances a b) (hs : W.Beside s t) :
    W.Agree (Handler.drawStandard a detectReuse site key s)
      (Handler.drawStandard b detectReuse site key t) := by
  have hasks {s t : Shared} (k : RandomKey) (hs : W.Beside s t) :
      W.Beside (s.noteAsked site k) (t.noteAsked site k) :=
    { next := hs.next, cells := fun hab => { hs.cells hab with }, cancelled := hs.cancelled
      side := hW.asks site k rfl hs.side }
  unfold Handler.drawStandard
  rw [(hs.cells hab).used]
  split
  · exact ⟨rfl, hs⟩
  · exact ⟨rfl, hs⟩
  · next k _ =>
    split
    · split
      · exact ⟨rfl, hs⟩
      · exact ⟨rfl, hasks k (hs.useUp hab k)⟩
    · exact ⟨rfl, hasks k hs⟩

theorem agree_thread {force : Bool} (hab : W.instances a b) (hs : W.Beside s t)
    (hn : W.HandsOnAlike a (.thread force) site key s next next') :
    W.Agree (Handler.drawThread a force next site key s)
      (Handler.drawThread b force next' site key t) := by
  unfold HandsOnAlike Handler.handsOn at hn
  dsimp only at hn
  unfold Handler.drawThread
  split
  · next hp =>
    rw [if_pos hp] at hn
    exact hn _ t rfl hs
  · next hp =>
    rw [if_neg hp] at hn
    rw [(hs.cells hab).held]
    exact hn _ _ rfl (hs.hold hab _)

theorem agree_memo {i : Nat} (hW : W.Suits (.memo i)) (hs : W.Beside s t)
    (hn : W.HandsOnAlike a (.memo i) site key s next next') :
    W.Agree (Handler.drawMemo i next site key s) (Handler.drawMemo i next' site key t) := by
  unfold HandsOnAlike Handler.handsOn at hn
  dsimp only at hn
  unfold Handler.drawMemo
  rw [(hW.caches rfl hs.side).1]
  split
  · next ho =>
    rw [ho] at hn
    exact hn _ t rfl hs
  · exact ⟨rfl, hs⟩
  · next k ho =>
    rw [ho] at hn
    dsimp only at hn ⊢
    split
    · exact ⟨rfl, hs⟩
    · next hg =>
      rw [hg] at hn
      refine (hn _ t rfl hs).onValue
        (fun v s => (.value v, s.remember i (site.distribution.identity, k) v))
        (fun v s => (.value v, s.remember i (site.distribution.identity, k) v)) ?_
      intro v s t hs
      exact ⟨rfl, { next := hs.next, cells := fun hab => { hs.cells hab with }
                    cancelled := hs.cancelled, side := (hW.caches rfl hs.side).2 _ v }⟩

theorem agree_keepAnswer {i : Nat} (hW : W.Suits (.persistent i)) (hs : W.Beside s t)
    (number : Nat) (v : Json) :
    W.Agree (Handler.keepAnswer i number v s) (Handler.keepAnswer i number v t) := by
  obtain ⟨hstore, hfiles, hside⟩ := hW.stores rfl hs.side
  unfold Handler.keepAnswer Shared.keep
  rw [hstore, hfiles]
  cases (s.store i).insertIfAbsent s.files number v.text with
  | error e => exact ⟨rfl, hs⟩
  | ok out =>
    exact ⟨rfl, { next := hs.next, cells := fun hab => { hs.cells hab with }
                  cancelled := hs.cancelled, side := hside out.1 out.2 }⟩

theorem agree_persistent {i : Nat} (hW : W.Suits (.persistent i)) (hs : W.Beside s t)
    (hn : W.HandsOnAlike a (.persistent i) site key s next next') :
    W.Agree (Handler.drawPersistent i next site key s)
      (Handler.drawPersistent i next' site key t) := by
  unfold HandsOnAlike Handler.handsOn at hn
  dsimp only at hn
  unfold Handler.drawPersistent
  rw [(hW.stores rfl hs.side).1]
  split
  · next ho =>
    rw [ho] at hn
    exact hn _ t rfl hs
  · exact ⟨rfl, hs⟩
  · next k ho =>
    rw [ho] at hn
    dsimp only at hn ⊢
    split
    · exact ⟨rfl, hs⟩
    · split <;> exact ⟨rfl, hs⟩
    · next hg =>
      rw [hg] at hn
      exact (hn _ t rfl hs).onValue _ _ fun v s t hs => agree_keepAnswer hW hs _ v

theorem agree_recorder (hab : W.instances a b) (hs : W.Beside s t)
    (hn : W.HandsOnAlike a .recorder site key s next next') :
    W.Agree (Handler.drawRecorder a next site key s)
      (Handler.drawRecorder b next' site key t) := by
  unfold HandsOnAlike Handler.handsOn at hn
  dsimp only at hn
  unfold Handler.drawRecorder
  rw [(hs.cells hab).trace]
  split
  · exact ⟨rfl, hs⟩
  · next hc =>
    rw [if_neg hc] at hn
    refine (hn _ t rfl hs).onValue
      (fun v s => if (s.trace a).contains site.name then
        (.failure (.duplicateSite site.name), s)
        else (.value v, s.setTrace a ((s.trace a).insert site.name (site.node key v))))
      (fun v t => if (t.trace b).contains site.name then
        (.failure (.duplicateSite site.name), t)
        else (.value v, t.setTrace b ((t.trace b).insert site.name (site.node key v)))) ?_
    intro v s t hs
    rw [(hs.cells hab).trace]
    split
    · exact ⟨rfl, hs⟩
    · exact ⟨rfl, hs.setTrace hab _⟩

theorem agree_condition {data : OrderedMap String Json} (hs : W.Beside s t)
    (hn : W.HandsOnAlike a (.condition data) site key s next next') :
    W.Agree (Handler.drawCondition data next site key s)
      (Handler.drawCondition data next' site key t) := by
  unfold HandsOnAlike Handler.handsOn at hn
  dsimp only at hn
  unfold Handler.drawCondition
  split
  · exact ⟨rfl, hs⟩
  · next hno =>
    refine hn ⟨site, key, s⟩ t ?_ hs
    split
    · next ho hd => exact absurd hd (hno _ ho)
    · rfl

/-- **An interpreter agrees with its counterpart** if what it hands on is answered
alike. -/
theorem agree_draw (hW : W.Suits h) (hab : W.instances a b) (hs : W.Beside s t)
    (hn : W.HandsOnAlike a h site key s next next') :
    W.Agree (h.draw a next site key s) (h.draw b next' site key t) := by
  cases h with
  | standard detectReuse => exact agree_standard hW hab hs
  | thread force => exact agree_thread hab hs hn
  | memo i => exact agree_memo hW hs hn
  | persistent i => exact agree_persistent hW hs hn
  | recorder => exact agree_recorder hab hs hn
  | condition data => exact agree_condition hs hn
  | replay values =>
    show W.Agree (Handler.drawReplay values site key s) (Handler.drawReplay values site key t)
    unfold Handler.drawReplay
    split <;> exact ⟨rfl, hs⟩
  | substitute d => exact hn _ t rfl hs
  | spy => exact hn _ _ rfl (hs.sight hab site.name key)
  | constant v => exact ⟨rfl, hs⟩
  | rekey key' => exact hn _ t rfl hs

end Interpreters

/-! ## Chains -/

/-- **Chains that are built alike** over two bases, or over none. -/
inductive Twins (W : Pairing) (base base' : Chain) : Chain → Chain → Prop where
  | base : Twins W base base' base base'
  | empty : Twins W base base' .empty .empty
  | link {a b : Nat} {h : Handler} {rest rest' : Chain} (same : W.instances a b)
    (suits : W.Suits h) (below : Twins W base base' rest rest') :
    Twins W base base' (.link a h rest) (.link b h rest')
  | branch {a b : Nat} {selects : String → Distribution → Bool}
    {alternate alternate' rest rest' : Chain} (same : W.instances a b)
    (beside : Twins W base base' alternate alternate')
    (below : Twins W base base' rest rest') :
    Twins W base base' (.branch a selects alternate rest)
      (.branch b selects alternate' rest')

/-- **Two bases that answer alike** what they are asked for, the instances of which have no
counterparts. -/
structure Bases (W : Pairing) (P : Chain → Site → Option RandomKey → Shared → Prop)
    (base base' : Chain) : Prop where
  apart : ∀ {a b}, W.instances a b → a ∉ base.ids ∧ b ∉ base'.ids
  agree : ∀ {site key s t}, P base site key s → W.Beside s t →
    W.Agree (base.draw site key s) (base'.draw site key t)

variable {P : Chain → Site → Option RandomKey → Shared → Prop} {base base' c c' : Chain}

/-- **Chains that are built alike answer alike.** -/
theorem Twins.agree (hbase : W.Bases P base base') (h : W.Twins base base' c c')
    {site : Site} {key : Option RandomKey} (hP : c.Throughout P site key s)
    (hs : W.Beside s t) : W.Agree (c.draw site key s) (c'.draw site key t) := by
  induction h generalizing site key s t with
  | base => exact hbase.agree hP.here hs
  | empty => exact ⟨rfl, hs⟩
  | link same suits _ ih =>
    rw [Chain.draw_link, Chain.draw_link]
    exact agree_draw suits same hs fun x t hx hs => ih (hP.2 x hx) hs
  | @branch a b selects _ _ _ _ _ _ _ iha ihr =>
    cases hb : selects site.name site.distribution with
    | true =>
      rw [Chain.draw_branch_of_selects hb, Chain.draw_branch_of_selects hb]
      exact iha (hP.2.1 hb) hs
    | false =>
      rw [Chain.draw_branch_of_not_selects hb, Chain.draw_branch_of_not_selects hb]
      exact ihr (hP.2.2 hb) hs

/-- Corresponding instances are linked together. -/
theorem Twins.mem_ids_iff (hbase : W.Bases P base base') (h : W.Twins base base' c c')
    (hab : W.instances a b) : b ∈ c'.ids ↔ a ∈ c.ids := by
  induction h with
  | base => exact iff_of_false (hbase.apart hab).2 (hbase.apart hab).1
  | empty => exact iff_of_false List.not_mem_nil List.not_mem_nil
  | link same _ _ ih =>
    show b ∈ _ :: _ ↔ a ∈ _ :: _
    rw [List.mem_cons, List.mem_cons, ih, W.instances_iff hab same]
  | branch same _ _ _ ih =>
    show b ∈ _ :: _ ↔ a ∈ _ :: _
    rw [List.mem_cons, List.mem_cons, ih, W.instances_iff hab same]

end Pairing

end Resampler
