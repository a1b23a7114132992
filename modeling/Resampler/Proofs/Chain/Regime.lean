import Resampler.Context
import Resampler.Proofs.Chain.Turn

/-!
# What a chain keeps

A draw travels through many interpreters, and each of them may write to the
state. A **regime** is a condition on the state that is to survive that, for
the draws that it admits: it holds before a draw, and again after a draw that
came to a value; a weaker one still holds after a draw that failed. An
interpreter that tolerates the regime may be linked anywhere.

Programs build chains on top of the one that they are given, so the question
is usually about one inner chain and everything that can be laid over it:
`LaidOver` says what that is, and `Regime.keeps_of_laidOver` that the layers
keep what the inner chain keeps.

With nothing as the inner chain this is a statement about every chain. Two
such are shown here: a draw makes distributions be asked for its own site
only, and it is recorded under its own name only.
-/

namespace Resampler

namespace Chain

/-- **A chain laid over another**: it ends in the inner chain, or in nothing,
on all of its branches, and the instances before that are of permitted
kinds. -/
inductive LaidOver (inner : Chain) (permitted : Nat → Handler → Prop) :
    Chain → Prop where
  | inner : LaidOver inner permitted inner
  | empty : LaidOver inner permitted .empty
  | link {id : Nat} {h : Handler} {rest : Chain} (ok : permitted id h)
    (below : LaidOver inner permitted rest) :
    LaidOver inner permitted (.link id h rest)
  | branch {id : Nat} {selects : String → Distribution → Bool}
    {alternate rest : Chain} (beside : LaidOver inner permitted alternate)
    (below : LaidOver inner permitted rest) :
    LaidOver inner permitted (.branch id selects alternate rest)

/-- The numbers of all instances, also of those on branches. -/
def numbers : Chain → List Nat
  | .empty => []
  | .link id _ rest => id :: rest.numbers
  | .branch id _ alternate rest => id :: (alternate.numbers ++ rest.numbers)

/-- **Instances that spare a chain**: they have no key and no trace in the cells
of its instances. Whoever cannot get hold of the instances of a chain can only
link such. -/
def Spares (c : Chain) (id : Nat) (h : Handler) : Prop :=
  (h = .recorder ∨ ∃ force, h = .thread force) → id ∉ c.numbers

theorem LaidOver.mono {inner c : Chain} {permitted permitted' : Nat → Handler → Prop}
    (hp : ∀ {id h}, permitted id h → permitted' id h) (hc : LaidOver inner permitted c) :
    LaidOver inner permitted' c := by
  induction hc with
  | inner => exact .inner
  | empty => exact .empty
  | link ok _ ih => exact .link (hp ok) ih
  | branch _ _ iha ihr => exact .branch iha ihr

/-- Every chain is laid over nothing. -/
theorem laidOver_empty (c : Chain) : LaidOver .empty (fun _ _ => True) c := by
  induction c with
  | empty => exact .empty
  | link id h rest ih => exact .link trivial ih
  | branch id selects alternate rest iha ihr => exact .branch iha ihr

end Chain

/-- **A condition that is to survive draws**, and the draws that it is to
survive. -/
structure Regime where
  /-- The draws that are admitted, by site and key. -/
  admits : Site → Option RandomKey → Prop
  /-- What holds before a draw, and after one that came to a value. -/
  before : Shared → Prop
  /-- What holds after every draw. -/
  after : Shared → Prop
  /-- The failures that a draw may come to. -/
  fails : Error → Prop
  /-- What holds before a draw also holds without one. -/
  after_of_before : ∀ {s}, before s → after s
  /-- A failure that is not about the reuse of a key is allowed. -/
  fails_of_innocent : ∀ {e}, e.isReuse = false → fails e
  /-- A draw with a key may fail for its reuse. -/
  fails_of_keyed : ∀ {site k e}, admits site (some k) → fails e

namespace Regime

/-- What may come out of a draw. -/
structure Fits (R : Regime) (out : Reply × Shared) : Prop where
  after : R.after out.2
  again : ∀ v, out.1 = .value v → R.before out.2
  fails : ∀ e, out.1 = .failure e → R.fails e

/-- **An answerer keeps the regime.** -/
def Keeps (R : Regime) (f : Answerer) : Prop :=
  ∀ site key s, R.admits site key → R.before s → R.Fits (f site key s)

/-- **An interpreter tolerates the regime**: what it writes by itself leaves
the condition alone, and what it hands on is admitted. -/
structure Tolerates (R : Regime) (id : Nat) (h : Handler) : Prop where
  hands : ∀ {site site' : Site} {key key' : Option RandomKey} {s : Shared},
    site'.name = site.name → site'.observed = site.observed →
    h.Rekeys id s key key' → R.admits site key → R.admits site' key'
  before : ∀ {site : Site} {key : Option RandomKey} {s s' : Shared},
    R.admits site key → h.Writes id site.name s s' → R.before s → R.before s'
  after : ∀ {site : Site} {key : Option RandomKey} {s s' : Shared},
    R.admits site key → h.Writes id site.name s s' → R.after s → R.after s'
  asks : ∀ {detectReuse : Bool} {site : Site} {k : RandomKey} {s : Shared},
    h = .standard detectReuse → R.admits site (some k) → R.before s →
    R.before (s.noteAsked site k) ∧ R.before ((s.useUp id k).noteAsked site k)

variable {R : Regime}

/-- An outcome that leaves the state alone fits. -/
theorem fits_of_before {s : Shared} {reply : Reply} (h : R.before s)
    (hf : ∀ e, reply = .failure e → R.fails e) : R.Fits (reply, s) :=
  ⟨R.after_of_before h, fun _ _ => h, hf⟩

/-- An outcome that is no value fits if the weaker condition holds. -/
theorem fits_of_after {s : Shared} {reply : Reply} (h : R.after s)
    (hno : reply.isValue = false) (hf : ∀ e, reply = .failure e → R.fails e) :
    R.Fits (reply, s) := by
  refine ⟨h, fun v hv => ?_, hf⟩
  change reply = .value v at hv
  rw [hv] at hno
  cases hno

/-- **One link.** An interpreter that tolerates the regime keeps it if the rest
of its chain does. -/
theorem Tolerates.keeps {id : Nat} {h : Handler} {next : Answerer}
    (hR : R.Tolerates id h) (hn : R.Keeps next) : R.Keeps (h.draw id next) := by
  intro site key s hA hJ
  have turn := h.draw_turn id next site key s
  generalize h.draw id next site key s = out at turn ⊢
  cases turn with
  | asks kind keyed drawn noted =>
    -- Asking is the one write that a regime has to speak of by itself.
    subst keyed
    have hs := hR.asks kind hA hJ
    rcases noted with rfl | rfl
    · exact fits_of_before hs.1 fun e _ => R.fails_of_keyed hA
    · exact fits_of_before hs.2 fun e _ => R.fails_of_keyed hA
  | answers reply blame =>
    refine fits_of_before hJ fun e he => ?_
    cases hr : e.isReuse with
    | false => exact R.fails_of_innocent hr
    | true =>
      obtain ⟨k, rfl⟩ := Option.isSome_iff_exists.mp (blame e he hr)
      exact R.fails_of_keyed hA
  | passes name observed keys before rest after told =>
    have hfit := hn _ _ _ (hR.hands name observed keys hA) (hR.before hA before hJ)
    rw [rest] at hfit
    refine ⟨hR.after hA after hfit.after, fun v hv => ?_, fun e he => ?_⟩
    · -- A value that is told on is the value that was answered.
      rcases told with rfl | ⟨v', e, rfl, rfl, -⟩
      · exact hR.before hA after (hfit.again v hv)
      · cases hv
    · rcases told with rfl | ⟨v', e', rfl, rfl, he'⟩
      · exact hfit.fails e he
      · cases he
        exact R.fails_of_innocent he'

/-- At the end of a chain nothing is written. -/
theorem keeps_empty (R : Regime) : R.Keeps Chain.empty.draw := by
  intro site key s _ hJ
  refine fits_of_before hJ fun e he => R.fails_of_innocent ?_
  unfold Site.unanswered at he
  split at he
  · cases he
  · cases he
    rfl

/-- A branching keeps the regime if both of its chains do. -/
theorem keeps_branch {id : Nat} {selects : String → Distribution → Bool}
    {alternate rest : Chain} (ha : R.Keeps alternate.draw)
    (hr : R.Keeps rest.draw) :
    R.Keeps (Chain.branch id selects alternate rest).draw := by
  intro site key s hA hJ
  show R.Fits (if selects site.name site.distribution then alternate.draw site key s
    else rest.draw site key s)
  split
  · exact ha site key s hA hJ
  · exact hr site key s hA hJ

/-- **What the inner chain keeps, every chain laid over it keeps.** -/
theorem keeps_of_laidOver {inner : Chain} {permitted : Nat → Handler → Prop}
    (hp : ∀ {id h}, permitted id h → R.Tolerates id h) (hi : R.Keeps inner.draw)
    {c : Chain} (hc : Chain.LaidOver inner permitted c) : R.Keeps c.draw := by
  induction hc with
  | inner => exact hi
  | empty => exact keeps_empty R
  | link ok _ ih => exact (hp ok).keeps ih
  | branch _ _ iha ihr => exact keeps_branch iha ihr

/-- What every interpreter tolerates, every chain keeps. -/
theorem keeps_draw (hR : ∀ {id h}, R.Tolerates id h) (c : Chain) : R.Keeps c.draw :=
  keeps_of_laidOver (fun _ => hR) (keeps_empty R) c.laidOver_empty

end Regime

/-! ## What the writes of an interpreter leave alone -/

namespace Shared

/-- Keeping a text changes a store and the files. -/
theorem keep_ok {s s' : Shared} {id key : Nat} {text : String}
    (h : s.keep id key text = .ok s') :
    ∃ st files, s' = { s.setStore id st with files := files } := by
  unfold keep at h
  cases hi : (s.store id).insertIfAbsent s.files key text with
  | error e =>
    rw [hi] at h
    cases h
  | ok out =>
    rw [hi] at h
    cases h
    exact ⟨out.1, out.2, rfl⟩

end Shared

namespace Handler

variable {id : Nat} {h : Handler} {name : String} {s s' : Shared}

/-- Only by asking a distribution it is noted that one has been asked. -/
theorem Writes.asked (hw : h.Writes id name s s') : s'.asked = s.asked := by
  cases hw with
  | keep _ hk =>
    obtain ⟨st, files, rfl⟩ := Shared.keep_ok hk
    rfl
  | _ => rfl

/-- What a draw writes into a trace stands under its name. -/
theorem Writes.get?_trace (hw : h.Writes id name s s') (j : Nat) {y : String}
    (hy : y ≠ name) : (s'.trace j).get? y = (s.trace j).get? y := by
  cases hw with
  | keep _ hk =>
    obtain ⟨st, files, rfl⟩ := Shared.keep_ok hk
    rfl
  | record node _ =>
    rw [Shared.trace_setTrace]
    split
    · next hj =>
      subst hj
      rw [OrderedMap.get?_insert, if_neg (Ne.symm hy)]
    · rfl
  | _ => rfl

/-- A trace that does not come to have the name stays as it is. -/
theorem Writes.trace_eq (hw : h.Writes id name s s') (j : Nat)
    (hn : (s'.trace j).contains name = false) : s'.trace j = s.trace j := by
  cases hw with
  | keep _ hk =>
    obtain ⟨st, files, rfl⟩ := Shared.keep_ok hk
    rfl
  | record node _ =>
    rw [Shared.trace_setTrace] at hn ⊢
    split at hn
    · simp [OrderedMap.contains] at hn
    · next hj => rw [if_neg hj]
  | _ => rfl

/-- **An instance that spares a chain** leaves the traces and keys of the chain
as they are. -/
theorem Writes.of_spares (hw : h.Writes id name s s') {c : Chain} (hc : c.Spares id h)
    {j : Nat} (hj : j ∈ c.numbers) :
    s'.trace j = s.trace j ∧ s'.heldKey j = s.heldKey j := by
  cases hw with
  | keep _ hk =>
    obtain ⟨st, files, rfl⟩ := Shared.keep_ok hk
    exact ⟨rfl, rfl⟩
  | hold force _ _ k =>
    have hne : id ≠ j := fun he => hc (.inr ⟨force, rfl⟩) (he ▸ hj)
    exact ⟨rfl, by rw [Shared.heldKey_hold, if_neg hne]⟩
  | record node _ =>
    have hne : id ≠ j := fun he => hc (.inl rfl) (he ▸ hj)
    exact ⟨by rw [Shared.trace_setTrace, if_neg hne], rfl⟩
  | _ => exact ⟨rfl, rfl⟩

end Handler

/-- **States that agree on numbers**: on the next one, and on those of the tokens that are
cancelled and of the instances that are installed. -/
structure Shared.SameNumbers (s s' : Shared) : Prop where
  next : s'.next = s.next
  cancelled : s'.cancelled = s.cancelled
  installed : s'.installed = s.installed

/-- What an interpreter writes leaves them alone. -/
theorem Handler.Writes.sameNumbers {id : Nat} {h : Handler} {name : String} {s s' t : Shared}
    (hw : h.Writes id name s s') (ht : t.SameNumbers s) : t.SameNumbers s' := by
  cases hw with
  | keep _ hk =>
    obtain ⟨st, files, rfl⟩ := Shared.keep_ok hk
    exact ⟨ht.next, ht.cancelled, ht.installed⟩
  | _ => exact ⟨ht.next, ht.cancelled, ht.installed⟩

/-! ## What holds of every chain -/

namespace Chain

/-- The regime of a condition that no draw of a name disturbs. -/
def regimeOf (name : String) (J : Shared → Prop) : Regime where
  admits site _ := site.name = name
  before := J
  after := J
  fails _ := True
  after_of_before h := h
  fails_of_innocent _ := trivial
  fails_of_keyed _ := trivial

theorem tolerates_regimeOf {name : String} {J : Shared → Prop}
    (hw : ∀ {id h s s'}, Handler.Writes id h name s s' → J s → J s')
    (ha : ∀ {site : Site} {s} (k), site.name = name → J s → J (s.noteAsked site k))
    (hu : ∀ {s} (id k), J s → J (s.useUp id k)) {id : Nat} {h : Handler} :
    (regimeOf name J).Tolerates id h where
  hands hname _ _ hA := hname.trans hA
  before hA h hJ := hw (hA ▸ h) hJ
  after hA h hJ := hw (hA ▸ h) hJ
  asks _ hA hJ := ⟨ha _ hA hJ, ha _ hA (hu _ _ hJ)⟩

/-- **A draw makes distributions be asked for its own site only.** -/
theorem asked_draw (c : Chain) (site : Site) (key : Option RandomKey) (s : Shared) :
    ∃ new, (c.draw site key s).2.asked = new ++ s.asked
      ∧ ∀ a ∈ new, a.1.name = site.name := by
  refine ((regimeOf site.name fun s' => ∃ new, s'.asked = new ++ s.asked
    ∧ ∀ a ∈ new, a.1.name = site.name).keeps_draw ?_ c site key s rfl
      ⟨[], rfl, fun _ h => nomatch h⟩).after
  refine tolerates_regimeOf (fun hw => ?_) (fun k hn => ?_) (fun _ _ h => h)
  · rw [hw.asked]
    exact id
  · rintro ⟨new, hs, hnew⟩
    refine ⟨(_, k) :: new, congrArg _ hs, fun a ha => ?_⟩
    rcases List.mem_cons.mp ha with rfl | ha
    · exact hn
    · exact hnew a ha

/-- **A draw is recorded under its own name only.** -/
theorem get?_trace_draw (c : Chain) (site : Site) (key : Option RandomKey)
    (s : Shared) (j : Nat) {y : String} (hy : y ≠ site.name) :
    ((c.draw site key s).2.trace j).get? y = (s.trace j).get? y := by
  refine ((regimeOf site.name fun s' => (s'.trace j).get? y
    = (s.trace j).get? y).keeps_draw ?_ c site key s rfl rfl).after
  refine tolerates_regimeOf (fun hw hJ => ?_) (fun _ _ h => h) (fun _ _ h => h)
  rw [hw.get?_trace j hy, hJ]

/-- **A trace that does not come to have the name of the draw stays as it
is.** -/
theorem trace_draw_eq (c : Chain) (site : Site) (key : Option RandomKey)
    (s : Shared) (j : Nat)
    (hn : ((c.draw site key s).2.trace j).contains site.name = false) :
    (c.draw site key s).2.trace j = s.trace j := by
  refine ((regimeOf site.name fun s' => (s'.trace j).contains site.name = false →
    s'.trace j = s.trace j).keeps_draw ?_ c site key s rfl (fun _ => rfl)).after hn
  -- The write leaves the trace alone, so the name is missing before it as well.
  refine tolerates_regimeOf (fun {id h s₁ s₂} hw hJ hc => ?_) (fun _ _ h => h)
    (fun _ _ h => h)
  have he := hw.trace_eq j hc
  rw [he] at hc ⊢
  exact hJ hc

/-- **A draw gives out no number**, and it neither cancels nor installs anything. -/
theorem sameNumbers_draw (c : Chain) (site : Site) (key : Option RandomKey) (s : Shared) :
    s.SameNumbers (c.draw site key s).2 :=
  ((regimeOf site.name s.SameNumbers).keeps_draw
    (tolerates_regimeOf (fun hw hs => hw.sameNumbers hs)
      (fun _ _ hs => ⟨hs.next, hs.cancelled, hs.installed⟩)
      fun _ _ hs => ⟨hs.next, hs.cancelled, hs.installed⟩)
    c site key s rfl ⟨rfl, rfl, rfl⟩).after

end Chain

theorem Context.sameNumbers_draw (c : Context) (site : Site) (s : Shared) :
    s.SameNumbers (c.draw site s).2 := by
  unfold Context.draw
  split
  · exact ⟨rfl, rfl, rfl⟩
  · exact c.chain.sameNumbers_draw site none s

end Resampler
