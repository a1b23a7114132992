import Resampler.Proofs.Chain.Regime
import Resampler.Proofs.Sampler.Course

/-!
# No key is asked with twice

Within one call the keys under which distributions are asked are all different.
They come from threads, and a thread that holds children of one key gives out
the first children of these, one after the other. So what a thread gives out is
told apart by a counter, and what two threads give out by the keys above.

Every execution has threads of its own: the one of the prior pass holds
children of the key at the top that has the number of the seed, and the two of
a unit hold grandchildren of a key at the top that no other unit has. Hence no
key is deeper than three, however long the run.

All this is about draws that come without a key. A program may put instances of
its own on the chain that it is given, as long as none of them gives a key.
-/

namespace Resampler

namespace RandomKey

/-- The number of the key at the top that a key is under. -/
def origin : RandomKey → Nat
  | .top n => n
  | .under p _ => p.origin

/-- The key that is given out when a child of `p` is held. -/
def issued (p : RandomKey) (i : Nat) : RandomKey := .under (.under p i) 0

theorem issued_inj {p q : RandomKey} {i j : Nat} (h : p.issued i = q.issued j) :
    p = q ∧ i = j := by
  unfold issued at h
  cases h
  exact ⟨rfl, rfl⟩

theorem depth_issued (p : RandomKey) (i : Nat) : (p.issued i).depth = p.depth + 2 := rfl

theorem origin_issued (p : RandomKey) (i : Nat) : (p.issued i).origin = p.origin := rfl

end RandomKey

/-! ## The account of the keys -/

/-- **A thread in use**: the cell in which it keeps its key, and the key whose
children it holds. -/
structure Strand where
  cell : Nat
  parent : RandomKey

/-- A thread is ahead of the keys that it has given out. -/
def Strand.Ahead (t : Strand) (keys : List RandomKey) (s : Shared) : Prop :=
  ∃ i, s.heldKey t.cell = .under t.parent i ∧ ∀ j, t.parent.issued j ∈ keys → j < i

/-- **Threads that do not get in each other's way**, and whose keys come from
permitted places at the top. -/
structure Strand.Apart (T : List Strand) (O : Nat → Prop) : Prop where
  cell : ∀ t ∈ T, ∀ t' ∈ T, t' ≠ t → t'.cell ≠ t.cell
  parent : ∀ t ∈ T, ∀ t' ∈ T, t' ≠ t → t'.parent ≠ t.parent
  depth : ∀ t ∈ T, t.parent.depth ≤ 1
  origin : ∀ t ∈ T, O t.parent.origin

/-- **The account of the keys since a given time**, over a standard interpreter
with the number `b`: which ones have been asked with since, where they come from,
and that all threads are ahead of them. -/
structure Account (b : Nat) (old new : List (Site × RandomKey)) (T : List Strand)
    (O : Nat → Prop) (s : Shared) : Prop where
  asked : s.asked = new ++ old
  distinct : (new.map Prod.snd).Nodup
  shallow : ∀ a ∈ new, a.2.depth ≤ 3
  origin : ∀ a ∈ new, O a.2.origin
  used : ∀ k ∈ s.usedKeys b, k ∈ new.map Prod.snd
  ahead : ∀ t ∈ T, t.Ahead (new.map Prod.snd) s

/-- The account of the keys, whatever they are. -/
def Spending (b : Nat) (old : List (Site × RandomKey)) (T : List Strand)
    (O : Nat → Prop) (s : Shared) : Prop :=
  ∃ new, Account b old new T O s

namespace Strand

variable {O : Nat → Prop} {t t' : Strand} {keys : List RandomKey} {s s' : Shared}

theorem apart_singleton (hd : t.parent.depth ≤ 1) (ho : O t.parent.origin) :
    Apart [t] O := by
  have hone : ∀ x ∈ [t], x = t := fun x hx => List.mem_singleton.mp hx
  refine ⟨fun x hx y hy hne => ?_, fun x hx y hy hne => ?_, fun x hx => ?_,
    fun x hx => ?_⟩
  · exact absurd ((hone y hy).trans (hone x hx).symm) hne
  · exact absurd ((hone y hy).trans (hone x hx).symm) hne
  · rw [hone x hx]
    exact hd
  · rw [hone x hx]
    exact ho

/-- Two threads are apart if they have different cells and different parents. -/
theorem apart_pair (ht : Apart [t] O) (ht' : Apart [t'] O) (hc : t.cell ≠ t'.cell)
    (hp : t.parent ≠ t'.parent) : Apart [t, t'] O := by
  have htwo : ∀ {P : Strand → Prop}, P t → P t' → ∀ x ∈ [t, t'], P x := by
    intro P h h' x hx
    rcases List.mem_cons.mp hx with rfl | hx
    · exact h
    · rw [List.mem_singleton.mp hx]
      exact h'
  refine ⟨htwo (htwo ?_ ?_) (htwo ?_ ?_), htwo (htwo ?_ ?_) (htwo ?_ ?_),
    htwo (ht.depth t List.mem_cons_self) (ht'.depth t' List.mem_cons_self),
    htwo (ht.origin t List.mem_cons_self) (ht'.origin t' List.mem_cons_self)⟩
  · exact fun hne => absurd rfl hne
  · exact fun _ => hc.symm
  · exact fun _ => hc
  · exact fun hne => absurd rfl hne
  · exact fun hne => absurd rfl hne
  · exact fun _ => hp.symm
  · exact fun _ => hp
  · exact fun hne => absurd rfl hne

/-- A thread of whose keys none has been given out is ahead of them. -/
theorem ahead_of_fresh (hheld : s.heldKey t.cell = .under t.parent 0)
    (hfresh : ∀ k ∈ keys, k.origin ≠ t.parent.origin) : t.Ahead keys s :=
  ⟨0, hheld, fun j hj => absurd (RandomKey.origin_issued t.parent j) (hfresh _ hj)⟩

/-- The key that a thread gives out next is a new one. -/
theorem Ahead.fresh (h : t.Ahead keys s) : ∃ i, s.heldKey t.cell = .under t.parent i
    ∧ (s.heldKey t.cell).deeper = t.parent.issued i ∧ t.parent.issued i ∉ keys := by
  obtain ⟨i, hheld, hlt⟩ := h
  refine ⟨i, hheld, ?_, fun hmem => Nat.lt_irrefl i (hlt i hmem)⟩
  rw [hheld]
  rfl

/-- A thread that has given out a key has gone on by one. -/
theorem Ahead.next (h : t.Ahead keys s)
    (hs : s'.heldKey t.cell = (s.heldKey t.cell).incremented) :
    t.Ahead ((s.heldKey t.cell).deeper :: keys) s' := by
  obtain ⟨i, hheld, hlt⟩ := h
  rw [hheld] at hs
  refine ⟨i + 1, hs, fun j hj => ?_⟩
  rw [hheld] at hj
  rcases List.mem_cons.mp hj with hj | hj
  · rw [(RandomKey.issued_inj hj).2]
    exact Nat.lt_succ_self i
  · exact Nat.lt_succ_of_lt (hlt j hj)

/-- A key from under another parent does not concern a thread. -/
theorem Ahead.other (h : t'.Ahead keys s) (hs : s'.heldKey t'.cell = s.heldKey t'.cell)
    {p : RandomKey} (hp : t'.parent ≠ p) (i : Nat) :
    t'.Ahead (p.issued i :: keys) s' := by
  obtain ⟨i', hheld, hlt⟩ := h
  refine ⟨i', hs.trans hheld, fun j hj => ?_⟩
  rcases List.mem_cons.mp hj with hj | hj
  · exact absurd (RandomKey.issued_inj hj).1 hp
  · exact hlt j hj

end Strand

namespace Spending

variable {b : Nat} {d : Bool} {old : List (Site × RandomKey)} {T : List Strand}
variable {O O' : Nat → Prop} {s s' : Shared}

/-- The account is about the keys that are held, used and asked with. -/
theorem congr (h : Spending b old T O s) (asked : s'.asked = s.asked)
    (used : s'.used = s.used) (held : s'.held = s.held) : Spending b old T O s' := by
  obtain ⟨new, h⟩ := h
  refine ⟨new, asked.trans h.asked, h.distinct, h.shallow, h.origin, ?_, fun t ht => ?_⟩
  · rw [Shared.usedKeys, used]
    exact h.used
  · have ht := h.ahead t ht
    unfold Strand.Ahead Shared.heldKey at ht ⊢
    rw [held]
    exact ht

/-- Between executions no thread is in use, and no key is held. -/
theorem forget (h : Spending b old T O s) (asked : s'.asked = s.asked)
    (used : s'.used = s.used) (hO : ∀ i, O i → O' i) : Spending b old [] O' s' := by
  obtain ⟨new, h⟩ := h
  refine ⟨new, asked.trans h.asked, h.distinct, h.shallow,
    fun a ha => hO _ (h.origin a ha), ?_, List.forall_mem_nil _⟩
  rw [Shared.usedKeys, used]
  exact h.used

/-- **An execution begins** with threads whose keys come from where none has come
from before. -/
theorem engage (h : Spending b old [] O s) (asked : s'.asked = s.asked)
    (used : s'.used = s.used) (hO : ∀ i, O i → O' i)
    (held : ∀ t ∈ T, s'.heldKey t.cell = .under t.parent 0)
    (hfresh : ∀ t ∈ T, ¬ O t.parent.origin) : Spending b old T O' s' := by
  obtain ⟨new, h⟩ := h
  refine ⟨new, asked.trans h.asked, h.distinct, h.shallow,
    fun a ha => hO _ (h.origin a ha), ?_, fun t ht => ?_⟩
  · rw [Shared.usedKeys, used]
    exact h.used
  · refine Strand.ahead_of_fresh (held t ht) fun k hk he => hfresh t ht ?_
    obtain ⟨a, ha, rfl⟩ := List.mem_map.mp hk
    rw [← he]
    exact h.origin a ha

theorem isQuiet (b : Nat) (old : List (Site × RandomKey)) (T : List Strand)
    (O : Nat → Prop) : Program.IsQuiet (Spending b old T O) :=
  ⟨fun _ h => h.congr rfl rfl rfl, fun _ h => h.congr rfl rfl rfl,
    fun _ h => h.congr rfl rfl rfl⟩

/-- **A thread gives out a new key**, and the account goes on with it. -/
theorem issue (h : Spending b old T O s) (hT : Strand.Apart T O) {t : Strand}
    (ht : t ∈ T) (site : Site) :
    (s.heldKey t.cell).deeper ∉ s.usedKeys b
      ∧ ∀ {s'}, s'.asked = (site, (s.heldKey t.cell).deeper) :: s.asked →
        (∀ k ∈ s'.usedKeys b, k ∈ s.usedKeys b ∨ k = (s.heldKey t.cell).deeper) →
        s'.held = s.held.insert t.cell (s.heldKey t.cell).incremented →
        Spending b old T O s' := by
  obtain ⟨new, h⟩ := h
  obtain ⟨i, -, hkey, hfresh⟩ := (h.ahead t ht).fresh
  refine ⟨fun hmem => hfresh (hkey ▸ h.used _ hmem), fun {s'} asked used held => ?_⟩
  have hheld : ∀ c, s'.heldKey c
      = if t.cell = c then (s.heldKey t.cell).incremented else s.heldKey c := by
    intro c
    rw [Shared.heldKey, held]
    exact Shared.heldKey_hold s t.cell c _
  refine ⟨(site, (s.heldKey t.cell).deeper) :: new, ?_, ?_, ?_, ?_, fun k hk => ?_,
    fun t' ht' => ?_⟩
  · rw [asked, h.asked]
    rfl
  · rw [List.map_cons]
    exact List.nodup_cons.mpr ⟨hkey ▸ hfresh, h.distinct⟩
  · refine List.forall_mem_cons.mpr ⟨?_, h.shallow⟩
    show (s.heldKey t.cell).deeper.depth ≤ 3
    rw [hkey, RandomKey.depth_issued]
    exact Nat.add_le_add_right (hT.depth t ht) 2
  · refine List.forall_mem_cons.mpr ⟨?_, h.origin⟩
    show O (s.heldKey t.cell).deeper.origin
    rw [hkey]
    exact hT.origin t ht
  · rw [List.map_cons, List.mem_cons]
    exact (used k hk).symm.imp_right (h.used k)
  · rw [List.map_cons]
    by_cases he : t' = t
    · rw [he]
      exact (h.ahead t ht).next (by rw [hheld, if_pos rfl])
    · -- The other threads hold their keys in other cells and under other parents.
      rw [hkey]
      refine (h.ahead t' ht').other ?_ (hT.parent t ht t' ht' he) i
      rw [hheld, if_neg (Ne.symm (hT.cell t ht t' ht' he))]

end Spending

/-! ## One draw -/

/-- **Interpreters that give no key**: a draw that came without one is handed on
without one. -/
def Handler.Keyless (h : Handler) : Prop :=
  (∀ force, h ≠ .thread force) ∧ ∀ k, h ≠ .rekey (some k)

/-- An interpreter that gives no key writes nothing that the account is about. -/
theorem Handler.Writes.of_keyless {id : Nat} {h : Handler} {name : String} {s s' : Shared}
    (hw : h.Writes id name s s') (hk : h.Keyless) :
    s'.asked = s.asked ∧ s'.used = s.used ∧ s'.held = s.held := by
  cases hw with
  | hold force _ _ _ => exact absurd rfl (hk.1 force)
  | keep _ hkeep =>
    obtain ⟨st, files, rfl⟩ := Shared.keep_ok hkeep
    exact ⟨rfl, rfl, rfl⟩
  | _ => exact ⟨rfl, rfl, rfl⟩

namespace Spending

variable {b : Nat} {d : Bool} {old : List (Site × RandomKey)} {T : List Strand}
variable {O : Nat → Prop} {s : Shared}

/-- The regime of the account: draws come without a key, and none of them fails
for the reuse of one. -/
def regime (b : Nat) (old : List (Site × RandomKey)) (T : List Strand)
    (O : Nat → Prop) : Regime where
  admits _ key := key = none
  before := Spending b old T O
  after := Spending b old T O
  fails e := e.isReuse = false
  after_of_before h := h
  fails_of_innocent h := h
  fails_of_keyed h := nomatch h

/-- Interpreters that give no key may be linked anywhere. -/
theorem tolerates {id : Nat} {h : Handler} (hk : h.Keyless) :
    (regime b old T O).Tolerates id h where
  hands {_ _ _ key' _} _ _ hkey hA := by
    cases hkey with
    | same _ _ => exact hA
    | thread force _ => exact absurd rfl (hk.1 force)
    | replace _ _ =>
      cases key' with
      | none => rfl
      | some k => exact absurd rfl (hk.2 k)
  before _ hw hJ := by
    obtain ⟨asked, used, held⟩ := hw.of_keyless hk
    exact hJ.congr asked used held
  after _ hw hJ := by
    obtain ⟨asked, used, held⟩ := hw.of_keyless hk
    exact hJ.congr asked used held
  asks _ hA _ := nomatch hA

/-- What the distribution of a site answers is never the reuse of a key. -/
theorem isReuse_ask {site : Site} {k : RandomKey} {e : Error}
    (h : site.ask k = .failure e) : e.isReuse = false := by
  unfold Site.ask at h
  cases hs : site.sample k with
  | value v =>
    rw [hs] at h
    cases h
  | failure cause =>
    rw [hs] at h
    cases h
    rfl
  | panic payload =>
    rw [hs] at h
    cases h

/-- **A thread over the standard interpreter keeps the account**, also where the
distribution is replaced in between. -/
theorem keeps_thread (hT : Strand.Apart T O) {t : Strand} (ht : t ∈ T) {next : Answerer}
    (f : Site → Site) (hf : ∀ site, (f site).observed = site.observed)
    (hnext : ∀ site, next site = Handler.drawStandard b d (f site)) :
    (regime b old T O).Keeps (Handler.drawThread t.cell false next) := by
  rintro site _ s rfl hJ
  cases ho : site.observed with
  | some w =>
    rw [Handler.drawThread_of_keyed (.inl (by rw [ho]; rfl)), hnext]
    unfold Handler.drawStandard
    rw [hf, ho]
    exact Regime.fits_of_before hJ fun e he => nomatch he
  | none =>
    rw [Handler.drawThread_of_unkeyed ho, hnext]
    obtain ⟨hfresh, hissue⟩ := hJ.issue hT ht (f site)
    have hJ' : ∀ out : Reply × Shared, out.1 = (f site).ask (s.heldKey t.cell).deeper →
        Spending b old T O out.2 → (regime b old T O).Fits out :=
      fun out ha hs => ⟨hs, fun _ _ => hs, fun e he => isReuse_ask (ha.symm.trans he)⟩
    unfold Handler.drawStandard
    rw [hf, ho]
    dsimp only
    split
    · split
      · next hmem => exact absurd hmem hfresh
      · refine hJ' _ rfl (hissue rfl (fun k hk => ?_) rfl)
        change k ∈ ((s.used.insert b
          ((s.heldKey t.cell).deeper :: s.usedKeys b)).get? b).getD [] at hk
        rw [OrderedMap.get?_insert, if_pos rfl] at hk
        exact (List.mem_cons.mp hk).symm
    · exact hJ' _ rfl (hissue rfl (fun k hk => .inl hk) rfl)

/-- A recorder and a condition give no key. -/
theorem keeps_covered {i j : Nat} {data : OrderedMap String Json} {rest : Chain}
    (h : (regime b old T O).Keeps rest.draw) :
    (regime b old T O).Keeps
      (Chain.link i .recorder (.link j (.condition data) rest)).draw := by
  refine (tolerates (h := .recorder) ⟨nofun, nofun⟩).keeps ?_
  exact (tolerates (h := .condition data) ⟨nofun, nofun⟩).keeps h

/-! ## One execution -/

/-- **An execution keeps the account**, and none of its draws fails for the reuse
of a key. -/
theorem run {σ : Type} {p : Program σ} {c : Chain}
    (hp : p.Within fun c' _ => Chain.LaidOver c (fun _ h => h.Keyless) c'.chain)
    (hc : (regime b old T O).Keeps c.draw) (h : Spending b old T O s) :
    Spending b old T O (p.run s).2
      ∧ ∀ a ∈ p.transcript s, ∀ e, a.2 = .failure e → e.isReuse = false := by
  refine hp.run (isQuiet b old T O) (P := fun _ reply => ∀ e, reply = .failure e →
    e.isReuse = false) ?_ h
  intro c' site s hlaid hs
  unfold Context.draw
  split
  · refine ⟨hs, fun e he => ?_⟩
    cases he
    rfl
  · have hfit := Regime.keeps_of_laidOver tolerates hc hlaid site none s rfl hs
    exact ⟨hfit.after, hfit.fails⟩

end Spending

/-- **Models whose draws come without a key** to the chain that they are given:
none of the instances that their programs put on it gives one. -/
def Model.Keyless {σ : Type} (m : Model σ) : Prop :=
  ∀ x c, (m x c).Within fun c' _ => Chain.LaidOver c.chain (fun _ h => h.Keyless) c'.chain

section Execution

variable {σ : Type} {b : Nat} {d : Bool} {old : List (Site × RandomKey)} {s : Shared}

/-- The prior pass asks with keys under the number of the seed. -/
theorem Sampler.spending_prior {g : Sampler σ} (hmodel : g.model.Keyless)
    (hbase : g.base = .link b (.standard d) .empty) (hfresh : s.usedKeys b = []) :
    Spending b s.asked [⟨s.next, .top g.settings.seed⟩] (· = g.settings.seed)
        (g.priorExecution s).2
      ∧ ∀ a ∈ g.priorTranscript s, ∀ e, a.2 = .failure e → e.isReuse = false := by
  have hT : Strand.Apart [⟨s.next, .top g.settings.seed⟩] (· = g.settings.seed) :=
    Strand.apart_singleton (Nat.zero_le 1) rfl
  refine Spending.run (hmodel _ _) ?_ ?_
  · show (Spending.regime b _ _ _).Keeps (g.priorChain s.next).draw
    unfold Sampler.priorChain
    rw [hbase]
    exact Spending.keeps_covered
      (Spending.keeps_thread hT List.mem_cons_self (fun site => site) (fun _ => rfl)
        fun _ => rfl)
  · have hnone : Spending b s.asked [] (fun _ => False) s := by
      refine ⟨[], rfl, List.nodup_nil, List.forall_mem_nil _, List.forall_mem_nil _, ?_,
        List.forall_mem_nil _⟩
      rw [hfresh]
      exact List.forall_mem_nil _
    refine hnone.engage rfl rfl (fun _ hi => hi.elim) (fun t ht => ?_) fun _ _ hi => hi
    rw [List.mem_singleton.mp ht]
    show (Shared.hold _ _ _).heldKey _ = _
    rw [Shared.heldKey_hold, if_pos rfl]
    rfl

/-- The two threads of a unit; `n` is its first number. -/
def WorkUnit.strands (i n : Nat) : List Strand :=
  [⟨n + 1, .under (.top i) 0⟩, ⟨n + 2, .under (.top i) 1⟩]

theorem WorkUnit.apart_strands {O : Nat → Prop} {i : Nat} (n : Nat) (hi : O i) :
    Strand.Apart (strands i n) O := by
  have hone := Strand.apart_singleton (t := ⟨n + 1, .under (.top i) 0⟩) (Nat.le_refl 1) hi
  have htwo := Strand.apart_singleton (t := ⟨n + 2, .under (.top i) 1⟩) (Nat.le_refl 1) hi
  refine Strand.apart_pair hone htwo ?_ ?_
  · show n + 1 ≠ n + 2
    omega
  · intro h
    cases h

theorem WorkUnit.origin_strands {i n : Nat} {t : Strand} (h : t ∈ strands i n) :
    t.parent.origin = i := by
  rcases List.mem_cons.mp h with rfl | h
  · rfl
  · rw [List.mem_singleton.mp h]
    rfl

/-- A unit begins with its key split between its two threads. -/
theorem WorkUnit.heldKey_prepare {u : WorkUnit} {i : Nat} (hkey : u.key = .under (.top i) 0)
    {t : Strand} (h : t ∈ strands i s.next) :
    (u.prepare s).heldKey t.cell = .under t.parent 0 := by
  rcases List.mem_cons.mp h with rfl | h
  · show (Shared.hold _ _ _).heldKey _ = _
    rw [Shared.heldKey_hold, if_neg (by simp), Shared.heldKey_hold, if_pos rfl,
      WorkUnit.siteKey, hkey]
    rfl
  · rw [List.mem_singleton.mp h]
    show (Shared.hold _ _ _).heldKey _ = _
    rw [Shared.heldKey_hold, if_pos rfl, WorkUnit.programKey, hkey]
    rfl

/-- A unit asks with keys under the number at the top that is its own. -/
theorem WorkUnit.spending {u : WorkUnit} {job : Job σ} (index : Nat) {i : Nat}
    {O : Nat → Prop} (hmodel : job.model.Keyless)
    (hbase : job.base = .link b (.standard d) .empty) (hkey : u.key = .under (.top i) 0)
    (hi : ¬ O i) (h : Spending b old [] O s) :
    Spending b old (strands i s.next) (fun j => O j ∨ j = i) (u.execution job index s).2
      ∧ ∀ a ∈ u.transcript job index s, ∀ e, a.2 = .failure e → e.isReuse = false := by
  have hT : Strand.Apart (strands i s.next) fun j => O j ∨ j = i :=
    apart_strands s.next (.inr rfl)
  refine Spending.run (hmodel _ _) ?_ ?_
  · show (Spending.regime b _ _ _).Keeps (u.chain job.base s.next).draw
    unfold WorkUnit.chain WorkUnit.alternate
    rw [hbase]
    refine Spending.keeps_covered (Regime.keeps_branch ?_ ?_)
    · exact Spending.keeps_thread hT List.mem_cons_self
        (fun site => { site with distribution := u.posterior }) (fun _ => rfl)
        fun _ => rfl
    · exact Spending.keeps_thread hT (List.mem_cons_of_mem _ List.mem_cons_self)
        (fun site => site) (fun _ => rfl) fun _ => rfl
  · refine h.engage rfl rfl (fun _ hj => .inl hj) (fun t ht => heldKey_prepare hkey ht) ?_
    intro t ht
    rw [origin_strands ht]
    exact hi

end Execution

/-! ## The run -/

/-- Whether no unit in flight has its key under a number. -/
def Run.isFree (r : Run) (i : Nat) : Prop := ∀ u ∈ r.queue, u.key ≠ .under (.top i) 0

/-- **A run that spends no key twice.** The numbers at the top below that of its
root are used up, or belong to one unit in flight each. -/
structure Run.Frugal (b : Nat) (old : List (Site × RandomKey)) (r : Run) : Prop where
  root : r.root = .top r.root.head
  keys : ∀ u ∈ r.queue, ∃ i < r.root.head, u.key = .under (.top i) 0
  distinct : (r.queue.map WorkUnit.key).Nodup
  account : Spending b old [] (fun i => i < r.root.head ∧ r.isFree i) r.shared

namespace Job

variable {σ : Type} {job : Job σ} {b : Nat} {d : Bool} {old : List (Site × RandomKey)}

/-- A unit of a frugal run has a number at the top for itself. -/
theorem exists_own_number {r : Run} {u : WorkUnit} {rest : List WorkUnit}
    (h : r.Frugal b old) (hq : r.queue = u :: rest) :
    ∃ i < r.root.head, u.key = .under (.top i) 0 ∧ ¬ r.isFree i
      ∧ ∀ u' ∈ rest, u'.key ≠ .under (.top i) 0 := by
  have hu : u ∈ r.queue := hq ▸ List.mem_cons_self
  obtain ⟨i, hi, hkey⟩ := h.keys u hu
  refine ⟨i, hi, hkey, fun hfree => hfree u hu hkey, fun u' hu' he => ?_⟩
  have hnodup := h.distinct
  rw [hq, List.map_cons, List.nodup_cons] at hnodup
  exact hnodup.1 (hkey.trans he.symm ▸ List.mem_map_of_mem hu')

/-- **A new unit takes the number of the root**, and the root moves on. -/
theorem frugal_start {r : Run} {site : String} {dist : Distribution}
    (h : r.Frugal b old) : (r.start job.token site dist).Frugal b old := by
  have hroot : r.root.incremented = .top (r.root.head + 1) := by rw [h.root]; rfl
  have hhead : r.root.incremented.head = r.root.head + 1 := RandomKey.head_incremented _
  have hkey : r.root.deeper = .under (.top r.root.head) 0 := by rw [h.root]; rfl
  have hmem : ∀ u ∈ (r.start job.token site dist).queue,
      u ∈ r.queue ∨ u.key = .under (.top r.root.head) 0 := by
    intro u hu
    rcases List.mem_append.mp hu with hu | hu
    · exact .inl hu
    · rw [List.mem_singleton.mp hu]
      exact .inr hkey
  refine ⟨?_, fun u hu => ?_, ?_, ?_⟩
  · show r.root.incremented = .top r.root.incremented.head
    rw [hroot]
    rfl
  · show ∃ i < r.root.incremented.head, _
    rw [hhead]
    rcases hmem u hu with hu | hu
    · obtain ⟨i, hi, hk⟩ := h.keys u hu
      exact ⟨i, Nat.lt_succ_of_lt hi, hk⟩
    · exact ⟨r.root.head, Nat.lt_succ_self _, hu⟩
  · show ((r.queue ++ [_]).map WorkUnit.key).Nodup
    rw [List.map_append, List.map_singleton]
    refine List.nodup_append.mpr ⟨h.distinct, by simp, ?_⟩
    intro k hk k' hk'
    obtain ⟨u, hu, rfl⟩ := List.mem_map.mp hk
    obtain ⟨i, hi, hku⟩ := h.keys u hu
    rw [List.mem_singleton.mp hk', hku]
    show RandomKey.under (.top i) 0 ≠ r.root.deeper
    rw [hkey]
    intro he
    cases he
    exact Nat.lt_irrefl _ hi
  · refine h.account.forget rfl rfl fun i hi => ⟨?_, fun u hu he => ?_⟩
    · show i < r.root.incremented.head
      rw [hhead]
      exact Nat.lt_succ_of_lt hi.1
    · rcases hmem u hu with hu | hu
      · exact hi.2 u hu he
      · rw [hu] at he
        cases he
        exact Nat.lt_irrefl _ hi.1

/-- A unit that has been taken back has used up its number. -/
theorem frugal_receive (hmodel : job.model.Keyless)
    (hbase : job.base = .link b (.standard d) .empty) {r : Run} {u : WorkUnit}
    {rest : List WorkUnit} (h : r.Frugal b old) (hq : r.queue = u :: rest) :
    (job.receive u { r with queue := rest }).Frugal b old := by
  obtain ⟨i, hi, hkey, hown, hrest⟩ := exists_own_number h hq
  have hacc := (WorkUnit.spending r.executions hmodel hbase hkey
    (fun hO => hown hO.2) h.account).1
  have got := job.received_receive u { r with queue := rest }
  have hsub : ∀ u' ∈ rest, u' ∈ r.queue := fun u' hu' => hq ▸ List.mem_cons_of_mem _ hu'
  refine ⟨?_, fun u' hu' => ?_, ?_, ?_⟩
  · rw [got.root]
    exact h.root
  · rw [got.queue] at hu'
    rw [got.root]
    exact h.keys u' (hsub u' hu')
  · rw [got.queue]
    have hnodup := h.distinct
    rw [hq, List.map_cons, List.nodup_cons] at hnodup
    exact hnodup.2
  · unfold Run.isFree
    rw [got.root, got.queue]
    refine hacc.forget got.asked got.used ?_
    rintro j (hj | rfl)
    · exact ⟨hj.1, fun u' hu' => hj.2 u' (hsub u' hu')⟩
    · exact ⟨hi, hrest⟩

theorem isInvariant_frugal (hmodel : job.model.Keyless)
    (hbase : job.base = .link b (.standard d) .empty) :
    job.IsInvariant (Run.Frugal b old) where
  stops h := ⟨h.root, h.keys, h.distinct, h.account⟩
  starts h _ _ := frugal_start h
  aborts {r site e} h _ _ := by
    obtain ⟨c, hc⟩ := Run.abort_eq r (.siteFailed site e)
    rw [hc]
    exact ⟨h.root, h.keys, h.distinct, h.account.forget rfl rfl fun _ hi => hi⟩
  takes h hq := frugal_receive hmodel hbase h hq

end Job

/-! ## The call -/

namespace Sampler

variable {σ : Type} {g : Sampler σ} {steps b : Nat} {d : Bool} {s : Shared}

theorem frugal_firstRun (hmodel : g.model.Keyless)
    (hbase : g.base = .link b (.standard d) .empty) (hfresh : s.usedKeys b = [])
    {t : Trace} {s' : Shared} (h : g.Begins s t s') :
    (g.firstRun steps t s').Frugal b s.asked := by
  refine ⟨rfl, fun u hu => (nomatch hu), List.nodup_nil, ?_⟩
  show Spending b s.asked [] _ s'
  rw [h.shared]
  refine (spending_prior hmodel hbase hfresh).1.forget rfl rfl fun i hi => ?_
  rw [hi]
  exact ⟨Nat.lt_succ_self _, fun u hu => nomatch hu⟩

/-- **A call that spends no key twice.** -/
structure SpendsKeysOnce (g : Sampler σ) (steps : Nat) (s : Shared) : Prop where
  /-- The keys with which distributions are asked are all different, and none is
  deeper than three. -/
  distinct : ∃ new, (g.sample steps s).2.2.asked = new ++ s.asked
    ∧ (new.map Prod.snd).Nodup ∧ ∀ a ∈ new, a.2.depth ≤ 3
  /-- No draw of the prior pass fails for the reuse of a key. -/
  prior : ∀ a ∈ g.priorTranscript s, ∀ e, a.2 = .failure e → e.isReuse = false
  /-- No draw of a unit does. -/
  units : ∀ {u r}, g.Executes steps s u r →
    ∀ a ∈ u.transcript g.job r.executions r.shared, ∀ e,
      a.2 = .failure e → e.isReuse = false
  /-- If the call fails for the reuse of a key, then the program has brought that
  up by itself, in the prior pass or in a unit, or the local posterior has. -/
  call : ∀ {e}, (g.sample steps s).1 = .failure e → e.isReuse = true →
    (g.priorExecution s).1.1 = .failure e
      ∨ (∃ u r e', g.Executes steps s u r ∧ e = .siteFailed u.site e'
        ∧ (u.execution g.job r.executions r.shared).1.1 = .failure e')
      ∨ ∃ site t e', g.posterior site t = .error e' ∧ e = .siteFailed site e'

/-- **No key is asked with twice**, whatever the dependencies and the local
posterior, if the program leaves the keys to the sampler. -/
theorem spendsKeysOnce (g : Sampler σ) (steps : Nat) (s : Shared)
    (hmodel : g.model.Keyless) (hbase : g.base = .link b (.standard d) .empty)
    (hfresh : s.usedKeys b = []) : g.SpendsKeysOnce steps s := by
  have hprior := spending_prior hmodel hbase hfresh
  have hinv : g.job.IsInvariant (Run.Frugal b s.asked) :=
    Job.isInvariant_frugal hmodel hbase
  refine ⟨?_, hprior.2, fun {u r} hexec => ?_, fun {e} hf hr => ?_⟩
  · rcases sample_cases g steps s with ⟨t, s', hb, he⟩ | ⟨he, -⟩
    · obtain ⟨new, h⟩ := (lastRun_keeps hinv (frugal_firstRun hmodel hbase hfresh) hb).account
      refine ⟨new, ?_, h.distinct, h.shallow⟩
      rw [he, resample_asked]
      exact h.asked
    · obtain ⟨new, h⟩ := hprior.1
      exact ⟨new, he.trans h.asked, h.distinct, h.shallow⟩
  · cases hexec with
    | @intro r₀ _ rest before front =>
      have hfrugal := hinv.launched
        (before.keeps hinv (frugal_firstRun hmodel hbase hfresh))
      obtain ⟨i, -, hkey, hown, -⟩ := Job.exists_own_number hfrugal front
      exact (WorkUnit.spending _ hmodel hbase hkey (fun hO => hown hO.2)
        hfrugal.account).2
  · rcases sample_cases g steps s with ⟨t, s', hb, he⟩ | ⟨-, hfail⟩
    · rw [he] at hf
      rcases resample_failure hf with h | rfl | ⟨site, -, rfl⟩
      · cases lastRun_blames hb h with
        | posterior failed => exact .inr (.inr ⟨_, _, _, failed, rfl⟩)
        | @unit u r e' executed failed =>
          rcases WorkUnit.resample_eq_error failed with h | ⟨message, rfl⟩
          · exact .inr (.inl ⟨u, r, e', executed, rfl, h⟩)
          · cases hr
      · cases hr
      · cases hr
    · rcases hfail e hf with h | ⟨site, rfl⟩
      · exact .inl h
      · cases hr

/-- A sampler of two sites that are drawn one after the other. -/
def twins : Sampler Unit :=
  .small (fun _ c => .ask c (.drawn "x" .ofDepth) fun _ =>
    .ask c (.drawn "y" .ofDepth) fun _ => .done) []

theorem spendsKeysOnce_twins : twins.SpendsKeysOnce 3 .small :=
  spendsKeysOnce (b := 0) (d := true) twins 3 .small
    (fun _ _ => Program.within_ask .inner fun _ => Program.within_ask .inner fun _ => trivial)
    rfl rfl

example : (twins.sample 3 .small).2.2.asked.map (fun a => (a.1.name, a.2))
    = [("y", .under (.under (.under (.top 3) 0) 0) 0),
      ("x", .under (.under (.under (.top 2) 0) 0) 0),
      ("y", .under (.under (.under (.top 1) 0) 0) 0),
      ("y", .under (.under (.top 0) 1) 0), ("x", .under (.under (.top 0) 0) 0)] := by
  decide +kernel

/-- A sampler whose program says of a site that its key was used twice. -/
def denouncing : Sampler Unit :=
  .small (fun _ _ => .finish (.failure (.keyReused "x")) ()) []

/-- What the program itself fails with is not kept from the caller, also where the
interpreter at the bottom watches over the keys. -/
theorem denouncing_sample :
    denouncing.model.Keyless ∧ denouncing.base = .link 0 (.standard true) .empty
      ∧ (denouncing.sample 0 .small).1 = .failure (.keyReused "x") :=
  ⟨fun _ _ => trivial, rfl, rfl⟩

end Sampler

end Resampler
